import Gomer.Spaces.Records

/-! `SpacesAuthService`: the sign-in links of a Space. `verify` in its parts, between which other
calls come in. -/
namespace Gomer

open HttpException

structure SpaceAuthToken where
  id : UuidText
  spaceId : UuidText
  email : String
  tokenHash : Bcrypt.Hash
  expiresAt : Int
  usedAt : Option Int
  deriving DecidableEq

/-- A row of `space_users`. -/
structure SpaceMember extends SpaceUser where
  spaceId : UuidText
  name : Option String
  lastLoginAt : Option Int
  deriving DecidableEq

def tokenTtl : Int := 30 * 60 * 1000

/-- The row that `requestLink` stores for a secret. -/
def authToken (service : AuthService) (spaceId : UuidText) (email : String) (id : UuidText)
    (salt : String) (secret : List Char) (now : Int) : SpaceAuthToken :=
  ⟨id, spaceId, email, Bcrypt.hash service.digest salt secret, now + tokenTtl, none⟩

/-- What the link carries. -/
def rawToken (id : UuidText) (secret : List Char) : List Char := id.text.toList ++ '.' :: secret

/-- The first two parts of `rawToken.split('.')`. -/
def splitToken (raw : List Char) : Except HttpException (String × List Char) :=
  let tokenId := raw.takeWhile (· != '.')
  let secret := ((raw.dropWhile (· != '.')).drop 1).takeWhile (· != '.')
  if tokenId = [] ∨ secret = [] then .error (unauthorized "Malformed token")
  else .ok (String.ofList tokenId, secret)

def invalidToken : HttpException := unauthorized "Invalid or expired token"

def findToken (tokens : List SpaceAuthToken) (id spaceId : UuidText) : Option SpaceAuthToken :=
  tokens.find? fun row => row.id == id && row.spaceId == spaceId

/-- The row of an unused and unexpired token; Postgres refuses an id that is no uuid. -/
def readToken (postgres : Postgres) (tokens : List SpaceAuthToken) (space : Space) (tokenId : String)
    (now : Int) : Except HttpException SpaceAuthToken :=
  match postgres.uuid tokenId with
  | none => .error internalServerError
  | some id =>
    match findToken tokens id space.id with
    | none => .error invalidToken
    | some row =>
      if row.usedAt.isSome ∨ row.expiresAt < now then .error invalidToken else .ok row

def saveUsed (tokens : List SpaceAuthToken) (id : UuidText) (now : Int) : List SpaceAuthToken :=
  tokens.map fun row => if row.id = id then { row with usedAt := some now } else row

def findMember (members : List SpaceMember) (spaceId : UuidText) (email : String) :
    Option SpaceMember :=
  members.find? fun member => member.spaceId == spaceId && member.email == email

/-- The save of `upsertMember`; a new row must not break a unique index. -/
def upsertMember (members : List SpaceMember) (spaceId : UuidText) (email : String)
    (existing : Option SpaceMember) (id : UuidText) (now : Int) :
    Except HttpException (List SpaceMember × SpaceMember) :=
  match existing with
  | some member =>
    let member := { member with lastLoginAt := some now }
    .ok (members.map fun row => if row.id = member.id then member else row, member)
  | none =>
    if (findMember members spaceId email).isSome ∨ members.any fun row => row.id == id then
      .error internalServerError
    else
      let member := { id := id, email := email, spaceId := spaceId, name := none, lastLoginAt := some now }
      .ok (members ++ [member], member)

/-! A link that has just been sent -/

theorem splitToken_rawToken {id : UuidText} {secret : List Char} (plain : '.' ∉ id.text.toList)
    (base64url : '.' ∉ secret) (drawn : secret ≠ []) :
    splitToken (rawToken id secret) = .ok (id.text, secret) := by
  have apart {text : List Char} (none : '.' ∉ text) : ∀ c ∈ text, (c != '.') = true :=
    fun c known => bne_iff_ne.mpr fun same => none (same ▸ known)
  have key : (rawToken id secret).takeWhile (· != '.') = id.text.toList := by
    rw [rawToken, List.takeWhile_append_of_pos (apart plain)]
    simp
  have rest : (rawToken id secret).dropWhile (· != '.') = '.' :: secret := by
    rw [rawToken, List.dropWhile_append_of_pos (apart plain)]
    simp
  have text : id.text.toList ≠ [] := by
    intro empty
    have length := id.length
    rw [← String.length_toList, empty] at length
    cases length
  have tail : secret.takeWhile (· != '.') = secret := by
    have all : (secret ++ []).takeWhile (· != '.') = secret ++ [].takeWhile (· != '.') :=
      List.takeWhile_append_of_pos (apart base64url)
    simpa using all
  simp only [splitToken, key, rest, List.drop_one, List.tail_cons, tail]
  rw [if_neg (by simp [text, drawn]), String.ofList_toList]

/-- The link is good until it expires or is used. -/
theorem readToken_authToken {service : AuthService} {postgres : Postgres} {space : Space}
    {email : String} {id : UuidText} {salt : String} {secret : List Char} {issued now : Int}
    {tokens : List SpaceAuthToken} (parses : postgres.uuid id.text = some id)
    (stored : findToken tokens id space.id =
      some (authToken service space.id email id salt secret issued))
    (soon : now ≤ issued + tokenTtl) :
    readToken postgres tokens space id.text now =
        .ok (authToken service space.id email id salt secret issued) ∧
      Bcrypt.compare service.digest secret
        (authToken service space.id email id salt secret issued).tokenHash = true := by
  constructor
  · have live : ¬ ((authToken service space.id email id salt secret issued).usedAt.isSome ∨
        (authToken service space.id email id salt secret issued).expiresAt < now) := by
      simp [authToken, soon]
    simp only [readToken, parses, stored]
    rw [if_neg live]
  · simp [authToken, Bcrypt.compare, Bcrypt.hash]

/-! A use -/

theorem findToken_some {tokens : List SpaceAuthToken} {id spaceId : UuidText}
    {row : SpaceAuthToken} (found : findToken tokens id spaceId = some row) :
    row ∈ tokens ∧ row.id = id ∧ row.spaceId = spaceId := by
  have hit := List.find?_some found
  rw [Bool.and_eq_true, beq_iff_eq, beq_iff_eq] at hit
  exact ⟨List.mem_of_find?_eq_some found, hit⟩

theorem readToken_ok {postgres : Postgres} {tokens : List SpaceAuthToken} {space : Space}
    {tokenId : String} {now : Int} {row : SpaceAuthToken}
    (ok : readToken postgres tokens space tokenId now = .ok row) :
    postgres.uuid tokenId = some row.id ∧ findToken tokens row.id space.id = some row ∧
      row.usedAt = none ∧ now ≤ row.expiresAt := by
  unfold readToken at ok
  split at ok
  · cases ok
  · rename_i id parses
    split at ok
    · cases ok
    · rename_i found
      split at ok
      · cases ok
      · rename_i live
        cases ok
        rw [(findToken_some found).2.1]
        rw [not_or, Option.not_isSome_iff_eq_none, Int.not_lt] at live
        exact ⟨parses, found, live⟩

theorem saveUsed_map {α : Type} (f : SpaceAuthToken → α)
    (kept : ∀ row usedAt, f { row with usedAt := usedAt } = f row) (tokens : List SpaceAuthToken)
    (id : UuidText) (now : Int) : (saveUsed tokens id now).map f = tokens.map f := by
  rw [saveUsed, List.map_map]
  refine List.map_congr_left fun row _ => ?_
  dsimp only [Function.comp_apply]
  split
  · exact kept row _
  · rfl

theorem saveUsed_used {tokens : List SpaceAuthToken} {id : UuidText} {now : Int}
    {row : SpaceAuthToken} (stored : row ∈ saveUsed tokens id now) (same : row.id = id) :
    row.usedAt ≠ none := by
  obtain ⟨before, _, rfl⟩ := List.mem_map.mp stored
  by_cases hit : before.id = id
  · rw [if_pos hit]
    exact Option.some_ne_none now
  · rw [if_neg hit] at same
    exact absurd same hit

end Gomer
