import Mathlib.Logic.Function.Basic
import Gomer.Integrations.Connections
import Gomer.Lib.Orm
import Gomer.Lib.Trace

/-! Calls of `ensureFreshMetaToken` on one Meta connection, in any interleaving, against a token
endpoint that accepts each refresh token once. A call that has lost the race saves the entity it has
loaded as inactive, with the tokens of that time. -/
namespace Gomer.Refreshes

open Orm (Entity Change updateRow)
open Trace
open Integrations (Integration MetaTokenSet MetaMcp expirySkewMs)

/-- The columns that a call can set. -/
inductive Column where
  | isActive
  | accessToken
  | refreshToken
  | tokenExpiresAt
  | scopes
  deriving DecidableEq, Repr

def Column.Value : Column → Type
  | .isActive => Bool
  | .accessToken | .refreshToken | .scopes => Option String
  | .tokenExpiresAt => Option Instant

instance : (k : Column) → DecidableEq k.Value
  | .isActive => inferInstanceAs (DecidableEq Bool)
  | .accessToken | .refreshToken | .scopes => inferInstanceAs (DecidableEq (Option String))
  | .tokenExpiresAt => inferInstanceAs (DecidableEq (Option Instant))

abbrev Row := Entity Column.Value

def isActive (row : Row) : Bool := row .isActive
def accessToken (row : Row) : Option String := row .accessToken
def refreshToken (row : Row) : Option String := row .refreshToken
def tokenExpiresAt (row : Row) : Option Instant := row .tokenExpiresAt

/-- `accessToken` is missing or expires within the skew. -/
def isStale (now : Instant) (row : Row) : Bool :=
  !((nonEmpty (accessToken row)).isSome &&
    !((tokenExpiresAt row).any fun time => time - expirySkewMs ≤ now))

def refreshedWith (refreshed : MetaTokenSet) : Change Column.Value
  | .accessToken => some (some refreshed.accessToken)
  | .refreshToken => refreshed.refreshToken.map some
  | .tokenExpiresAt => some refreshed.expiresAt
  | .scopes => (nonEmpty refreshed.scopes).map some
  | .isActive => none

def deactivated : Change Column.Value
  | .isActive => some false
  | _ => none

/-- `won` says that the request has been granted. -/
inductive Phase where
  | waiting
  | loaded (entity : Row)
  | answered (entity : Row) (won : Bool)
  | saving (entity seen : Row) (won : Bool)
  | finished

/-- `current` is the refresh token that the endpoint accepts, `known` are the ones it has handed
out, `granted` has the calls that it has answered with tokens, the latest first. -/
structure State where
  clock : Int
  row : Row
  phase : Nat → Phase
  current : String
  known : List String
  granted : List (Nat × MetaTokenSet)

def start (clock : Int) (row : Row) (current : String) : State :=
  ⟨clock, row, fun _ => .waiting, current, current :: (refreshToken row).toList, []⟩

inductive Act where
  | wait (clock : Int)
  | load (call : Nat)
  /-- The answer to a request; without one the request has failed. -/
  | request (call : Nat) (answer : Option MetaTokenSet)
  | reread (call : Nat)
  | write (call : Nat)
  /-- The endpoint gives up the token it accepts, as when an answer of it is lost. -/
  | revoke (current : String)

def State.at (s : State) (call : Nat) (phase : Phase) : State :=
  { s with phase := Function.update s.phase call phase }

/-- Only active rows are loaded; a fresh one, and one that cannot be refreshed, is done with. -/
def load (s : State) (call : Nat) : State :=
  if isActive s.row && isStale s.clock s.row && (nonEmpty (refreshToken s.row)).isSome then
    s.at call (.loaded s.row)
  else s.at call .finished

/-- The endpoint grants a request for the token it accepts, and accepts a new one from then on. -/
def request (s : State) (call : Nat) (entity : Row) : Option MetaTokenSet → Option State
  | none => some (s.at call (.answered (deactivated.apply entity) false))
  | some tokens =>
    match tokens.refreshToken with
    | none => none
    | some next =>
      if refreshToken entity = some s.current ∧ next ∉ s.known then
        some { s.at call (.answered ((refreshedWith tokens).apply entity) true) with
          current := next
          known := next :: s.known
          granted := (call, tokens) :: s.granted }
      else none

def step (s : State) : Act → Option State
  | .wait clock => if s.clock ≤ clock then some { s with clock := clock } else none
  | .load call =>
    match s.phase call with
    | .waiting => some (load s call)
    | _ => none
  | .request call answer =>
    match s.phase call with
    | .loaded entity => request s call entity answer
    | _ => none
  | .reread call =>
    match s.phase call with
    | .answered entity won => some (s.at call (.saving entity s.row won))
    | _ => none
  | .write call =>
    match s.phase call with
    | .saving entity seen _ =>
      some { s.at call .finished with row := updateRow seen entity s.row }
    | _ => none
  | .revoke current => if current ∉ s.known then some { s with current := current } else none

abbrev Step (s : State) (a : Act) (t : State) : Prop := step s a = some t

/-! A call by itself -/

def columns (row : Integration) : Row
  | .isActive => row.isActive
  | .accessToken => row.accessToken
  | .refreshToken => row.refreshToken
  | .tokenExpiresAt => row.tokenExpiresAt
  | .scopes => row.scopes

/-- The saves of `ensureFreshMetaToken`, on the columns. -/
theorem columns_refreshedWith (refreshed : MetaTokenSet) (row : Integration) :
    columns ((Integrations.refreshedWith refreshed).assign row) =
      (refreshedWith refreshed).apply (columns row) := by
  funext k
  cases k with
  | refreshToken =>
    unfold Change.apply
    dsimp only [columns, Integrations.refreshedWith, refreshedWith]
    cases refreshed.refreshToken <;> rfl
  | scopes =>
    unfold Change.apply
    dsimp only [columns, Integrations.refreshedWith, refreshedWith]
    cases nonEmpty refreshed.scopes <;> rfl
  | _ => rfl

theorem columns_deactivated (row : Integration) :
    columns (Integrations.deactivated.assign row) = deactivated.apply (columns row) := by
  funext k
  cases k <;> rfl

/-! The law, and the condition on a step -/

/-- The row is active and has the tokens. -/
def Holds (row : Row) (tokens : MetaTokenSet) : Prop :=
  isActive row = true ∧ accessToken row = some tokens.accessToken ∧
    refreshToken row = tokens.refreshToken

/-- Once the call of the latest grant is through, its tokens are in the row. -/
def Kept (s : State) : Prop :=
  ∀ call tokens, s.granted.head? = some (call, tokens) → s.phase call = .finished →
    Holds s.row tokens

def decisive : List Column := [.isActive, .accessToken, .refreshToken]

/-- A save that leaves a column out finds there what it would write. -/
def Completes (row entity seen : Row) : Prop :=
  ∀ k ∈ decisive, seen k = entity k → row k = entity k

/-- A save that writes a column finds there what it writes. -/
def Spares (row entity seen : Row) : Prop :=
  ∀ k ∈ decisive, seen k ≠ entity k → row k = entity k

/-- The save of a granted call is complete; that of a failed one, when the latest grant is in the
row, changes nothing of it. -/
def Undisturbed (s : State) : Act → Prop
  | .write call => ∀ entity seen won, s.phase call = .saving entity seen won →
      (won = true → Completes s.row entity seen) ∧
        (won = false → ∀ other tokens, s.granted.head? = some (other, tokens) →
          s.phase other = .finished → Spares s.row entity seen)
  | _ => True

theorem holds_iff_agree {row other : Row} {tokens : MetaTokenSet} (holds : Holds row tokens) :
    Holds other tokens ↔ ∀ k ∈ decisive, other k = row k := by
  obtain ⟨active, access, refresh⟩ := holds
  simp only [decisive, List.forall_mem_cons, List.not_mem_nil, false_implies, implies_true, and_true]
  unfold Holds
  rw [← active, ← access, ← refresh]
  rfl

theorem updateRow_eq_entity_iff {row entity seen : Row} {k : Column} :
    updateRow seen entity row k = entity k ↔ (seen k = entity k → row k = entity k) := by
  unfold updateRow
  split
  · rename_i same
    exact ⟨fun kept _ => kept, fun kept => kept same⟩
  · rename_i sent
    exact iff_of_true rfl fun same => absurd same sent

theorem updateRow_eq_row_iff {row entity seen : Row} {k : Column} :
    updateRow seen entity row k = row k ↔ (seen k ≠ entity k → row k = entity k) := by
  unfold updateRow
  split
  · rename_i same
    exact iff_of_true rfl fun sent => absurd same sent
  · rename_i sent
    exact ⟨fun kept _ => kept.symm, fun kept => (kept sent).symm⟩

theorem completes_iff {row entity seen : Row} {tokens : MetaTokenSet}
    (holds : Holds entity tokens) :
    Holds (updateRow seen entity row) tokens ↔ Completes row entity seen := by
  rw [holds_iff_agree holds]
  exact forall₂_congr fun _ _ => updateRow_eq_entity_iff

theorem spares_iff {row entity seen : Row} {tokens : MetaTokenSet} (holds : Holds row tokens) :
    Holds (updateRow seen entity row) tokens ↔ Spares row entity seen := by
  rw [holds_iff_agree holds]
  exact forall₂_congr fun _ _ => updateRow_eq_row_iff

/-! Where the refresh tokens are -/

def Phase.entity : Phase → Option Row
  | .loaded entity | .answered entity _ | .saving entity _ _ => some entity
  | _ => none

def Phase.won : Phase → Bool
  | .answered _ won | .saving _ _ won => won
  | _ => false

/-- The call of the latest grant, before its save: it alone has the new refresh token. -/
structure Winner (s : State) (call : Nat) (entity : Row) (tokens : MetaTokenSet) : Prop where
  latest : s.granted.head? = some (call, tokens)
  holds : Holds entity tokens
  secret : ∃ token, tokens.refreshToken = some token ∧ (s.current = token ∨ s.current ∉ s.known) ∧
    refreshToken s.row ≠ some token ∧
    ∀ other e, other ≠ call → (s.phase other).entity = some e → refreshToken e ≠ some token

structure Inv (s : State) : Prop where
  row : ∀ token, refreshToken s.row = some token → token ∈ s.known
  entity : ∀ call entity, (s.phase call).entity = some entity →
    ∀ token, refreshToken entity = some token → token ∈ s.known
  active : ∀ call entity, s.phase call = .loaded entity → isActive entity = true
  winner : ∀ call entity, (s.phase call).won = true → (s.phase call).entity = some entity →
    ∃ tokens, Winner s call entity tokens
  latest : ∀ call tokens, s.granted.head? = some (call, tokens) →
    s.phase call = .finished ∨ (s.phase call).won = true

section
variable {s t : State} {call : Nat} {entity seen : Row}

theorem phase_at (phase : Phase) (other : Nat) :
    (s.at call phase).phase other = if other = call then phase else s.phase other :=
  Function.update_apply s.phase call phase other

theorem start_inv (clock : Int) (row : Row) (current : String) : Inv (start clock row current) where
  row token same := by
    have own : refreshToken row = some token := same
    simp [start, own]
  entity _ _ none := by cases none
  active _ _ other := by cases other
  winner _ _ lost := by cases lost
  latest _ _ none := by cases none

/-- A call goes on without a grant: it holds what it has held or what is in the row, and what it
saves into the row is what it has held. -/
theorem Inv.at (inv : Inv s) {phase : Phase} {row : Row}
    (entity : ∀ e, phase.entity = some e → refreshToken e = refreshToken s.row ∨
      ∃ before, (s.phase call).entity = some before ∧ refreshToken e = refreshToken before)
    (active : ∀ e, phase = .loaded e → isActive e = true)
    (won : phase.won = true → (s.phase call).won = true ∧ phase.entity = (s.phase call).entity)
    (latest : (s.phase call).won = true → phase.won = true ∨ phase = .finished)
    (unfinished : s.phase call ≠ .finished)
    (saved : refreshToken row = refreshToken s.row ∨ phase.won = false ∧
      ∃ e, (s.phase call).entity = some e ∧ refreshToken row = refreshToken e) :
    Inv { s.at call phase with row := row } := by
  constructor
  · intro token same
    rcases saved with kept | ⟨_, e, held, written⟩
    · exact inv.row token (kept ▸ same)
    · exact inv.entity call e held token (written ▸ same)
  · intro other e held token same
    dsimp only at held
    rw [phase_at] at held
    split at held
    · rcases entity e held with kept | ⟨before, own, kept⟩
      · exact inv.row token (kept ▸ same)
      · exact inv.entity call before own token (kept ▸ same)
    · exact inv.entity other e held token same
  · intro other e loaded
    dsimp only at loaded
    rw [phase_at] at loaded
    split at loaded
    · exact active e loaded
    · exact inv.active other e loaded
  · intro holder e own held
    dsimp only at own held
    rw [phase_at] at own held
    -- The winner is as before; the call that has moved is another one, or the winner itself.
    have before : (s.phase holder).won = true ∧ (s.phase holder).entity = some e := by
      split at own
      · rename_i same
        subst same
        rw [if_pos rfl] at held
        obtain ⟨was, kept⟩ := won own
        exact ⟨was, kept ▸ held⟩
      · rename_i apart
        rw [if_neg apart] at held
        exact ⟨own, held⟩
    obtain ⟨tokens, winner⟩ := inv.winner holder e before.1 before.2
    obtain ⟨token, secret, accepts, absent, others⟩ := winner.secret
    refine ⟨tokens, winner.latest, winner.holds, token, secret, accepts, ?_, ?_⟩
    · rcases saved with kept | ⟨lost, e', held', written⟩
      · exact fun same => absent (kept ▸ same)
      · have apart : call ≠ holder := by
          rintro rfl
          rw [if_pos rfl, lost] at own
          cases own
        exact fun same => others call e' apart held' (written ▸ same)
    · intro other e' apart held' same
      dsimp only at held'
      rw [phase_at] at held'
      split at held'
      · rename_i moved
        subst moved
        rcases entity e' held' with kept | ⟨before, own, kept⟩
        · exact absent (kept ▸ same)
        · exact others other before apart own (kept ▸ same)
      · exact others other e' apart held' same
  · intro other tokens head
    dsimp only
    rw [phase_at]
    split
    · rename_i same
      subst same
      rcases inv.latest other tokens head with done | won
      · exact absurd done unfinished
      · exact (latest won).symm
    · exact inv.latest other tokens head

theorem load_inv (inv : Inv s) (stands : s.phase call = .waiting) : Inv (load s call) := by
  have lost : ¬ (s.phase call).won = true := by simp [stands, Phase.won]
  unfold load
  split
  · rename_i visible
    rw [Bool.and_eq_true, Bool.and_eq_true] at visible
    refine inv.at (fun e held => .inl ?_) (fun e loaded => ?_) (fun won => by cases won)
      (fun won => absurd won lost) (by simp [stands]) (.inl rfl)
    · cases held
      rfl
    · cases loaded
      exact visible.1.1
  · exact inv.at (fun _ held => by cases held) (fun _ loaded => by cases loaded)
      (fun won => by cases won) (fun won => absurd won lost) (by simp [stands]) (.inl rfl)

/-- A request is granted to one call at a time: the refresh token that the endpoint accepts is in
the row only when the call of the grant before has saved it. -/
theorem granted_inv (inv : Inv s) {tokens : MetaTokenSet} {next : String}
    (stands : s.phase call = .loaded entity) (rotates : tokens.refreshToken = some next)
    (accepted : refreshToken entity = some s.current) (fresh : next ∉ s.known) :
    Inv { s.at call (.answered ((refreshedWith tokens).apply entity) true) with
      current := next
      known := next :: s.known
      granted := (call, tokens) :: s.granted } := by
  have held : (s.phase call).entity = some entity := by
    rw [stands]
    rfl
  have nobody (other : Nat) (e : Row) (apart : other ≠ call) (own : (s.phase other).won = true)
      (holds : (s.phase other).entity = some e) : False := by
    obtain ⟨_, winner⟩ := inv.winner other e own holds
    obtain ⟨token, _, accepts, _, others⟩ := winner.secret
    rcases accepts with same | unknown
    · exact others call entity apart.symm held (same ▸ accepted)
    · exact unknown (inv.entity call entity held s.current accepted)
  have secret : refreshToken ((refreshedWith tokens).apply entity) = some next := by
    have set : refreshedWith tokens .refreshToken = some (some next) :=
      congrArg (Option.map some) rotates
    change (refreshedWith tokens .refreshToken).getD _ = some next
    rw [set]
    rfl
  constructor
  · exact fun token same => List.mem_cons_of_mem next (inv.row token same)
  · intro other e holds token same
    dsimp only at holds
    rw [phase_at] at holds
    split at holds
    · cases holds
      cases secret.symm.trans same
      exact List.mem_cons_self
    · exact List.mem_cons_of_mem next (inv.entity other e holds token same)
  · intro other e loaded
    dsimp only at loaded
    rw [phase_at] at loaded
    split at loaded
    · cases loaded
    · exact inv.active other e loaded
  · intro other e own holds
    dsimp only at own holds
    rw [phase_at] at own holds
    split at own
    · rename_i same
      rw [if_pos same] at holds
      cases holds
      subst same
      refine ⟨tokens, rfl, ⟨?_, rfl, secret.trans rotates.symm⟩, next, rotates, .inl rfl, ?_, ?_⟩
      · exact inv.active other entity stands
      · exact fun same => fresh (inv.row next same)
      · intro third e' apart held' same
        dsimp only at held'
        rw [phase_at, if_neg apart] at held'
        exact fresh (inv.entity third e' held' next same)
    · rename_i apart
      rw [if_neg apart] at holds
      exact (nobody other e apart own holds).elim
  · intro other tokens' head
    cases head
    dsimp only
    rw [phase_at, if_pos rfl]
    exact .inr rfl

/-- What a step does, and where the call stands that takes it. -/
inductive Taken (s : State) : Act → State → Prop where
  | wait {clock : Int} : Taken s (.wait clock) { s with clock := clock }
  | load {call : Nat} (stands : s.phase call = .waiting) : Taken s (.load call) (load s call)
  | failed {call : Nat} {entity : Row} (stands : s.phase call = .loaded entity) :
      Taken s (.request call none) (s.at call (.answered (deactivated.apply entity) false))
  | granted {call : Nat} {entity : Row} {tokens : MetaTokenSet} {next : String}
      (stands : s.phase call = .loaded entity) (rotates : tokens.refreshToken = some next)
      (accepted : refreshToken entity = some s.current) (fresh : next ∉ s.known) :
      Taken s (.request call (some tokens))
        { s.at call (.answered ((refreshedWith tokens).apply entity) true) with
          current := next
          known := next :: s.known
          granted := (call, tokens) :: s.granted }
  | reread {call : Nat} {entity : Row} {won : Bool} (stands : s.phase call = .answered entity won) :
      Taken s (.reread call) (s.at call (.saving entity s.row won))
  | write {call : Nat} {entity seen : Row} {won : Bool}
      (stands : s.phase call = .saving entity seen won) :
      Taken s (.write call) { s.at call .finished with row := updateRow seen entity s.row }
  | revoke {current : String} (unknown : current ∉ s.known) :
      Taken s (.revoke current) { s with current := current }

theorem step_taken {a : Act} (taken : Step s a t) : Taken s a t := by
  cases a with
  | wait clock =>
    simp only [Step, step] at taken
    split at taken <;> cases taken
    exact .wait
  | load call =>
    simp only [Step, step] at taken
    split at taken <;> cases taken
    exact .load ‹_›
  | request call answer =>
    simp only [Step, step] at taken
    split at taken
    · rename_i entity stands
      cases answer with
      | none =>
        cases taken
        exact .failed stands
      | some tokens =>
        unfold request at taken
        dsimp only at taken
        split at taken
        · cases taken
        · rename_i next rotates
          split at taken <;> cases taken
          rename_i grants
          exact .granted stands rotates grants.1 grants.2
    · cases taken
  | reread call =>
    simp only [Step, step] at taken
    split at taken <;> cases taken
    exact .reread ‹_›
  | write call =>
    simp only [Step, step] at taken
    split at taken <;> cases taken
    exact .write ‹_›
  | revoke current =>
    simp only [Step, step] at taken
    split at taken <;> cases taken
    exact .revoke ‹_›

theorem step_inv {a : Act} (inv : Inv s) (taken : Step s a t) : Inv t := by
  cases step_taken taken with
  | wait =>
    exact ⟨inv.row, inv.entity, inv.active, fun call e won held =>
      (inv.winner call e won held).imp fun _ winner => ⟨winner.latest, winner.holds, winner.secret⟩,
      inv.latest⟩
  | load stands => exact load_inv inv stands
  | @failed call entity stands =>
    have lost : ¬ (s.phase call).won = true := by simp [stands, Phase.won]
    refine inv.at (fun e held => .inr ⟨entity, ?_, ?_⟩) (fun _ loaded => by cases loaded)
      (fun won => by cases won) (fun won => absurd won lost) (by simp [stands]) (.inl rfl)
    · rw [stands]
      rfl
    · cases held
      rfl
  | granted stands rotates accepted fresh => exact granted_inv inv stands rotates accepted fresh
  | @reread call entity won stands =>
    refine inv.at (fun e held => .inr ⟨e, ?_, rfl⟩) (fun _ loaded => by cases loaded)
      (fun own => ?_) (fun own => .inl ?_) (by simp [stands]) (.inl rfl)
    · rw [stands]
      exact held
    · rw [stands]
      exact ⟨own, rfl⟩
    · rw [stands] at own
      exact own
  | @write call entity seen won stands =>
    refine inv.at (fun _ held => by cases held) (fun _ loaded => by cases loaded)
      (fun own => by cases own) (fun _ => .inr rfl) (by simp [stands]) ?_
    by_cases same : seen .refreshToken = entity .refreshToken
    · left
      exact if_pos same
    · refine .inr ⟨rfl, entity, ?_, if_neg same⟩
      rw [stands]
      rfl
  | revoke unknown =>
    refine ⟨inv.row, inv.entity, inv.active, fun call e won held => ?_, inv.latest⟩
    obtain ⟨tokens, winner⟩ := inv.winner call e won held
    obtain ⟨token, same, _, rest⟩ := winner.secret
    exact ⟨tokens, winner.latest, winner.holds, token, same, .inr unknown, rest⟩

/-! The law -/

theorem start_kept (clock : Int) (row : Row) (current : String) : Kept (start clock row current) :=
  fun _ _ none => by cases none

/-- Nothing is saved, and the call of the latest grant is not through with this step. -/
theorem kept_of_unsaved (kept : Kept s) (row : t.row = s.row) (granted : t.granted = s.granted)
    (finished : ∀ call tokens, s.granted.head? = some (call, tokens) → t.phase call = .finished →
      s.phase call = .finished) : Kept t := by
  intro call tokens head done
  rw [granted] at head
  rw [row]
  exact kept call tokens head (finished call tokens head done)

/-- The same for a call that has no grant, or is not through. -/
theorem kept_at (inv : Inv s) (kept : Kept s) {phase : Phase} (unfinished : s.phase call ≠ .finished)
    (unanswered : (s.phase call).won = true → phase ≠ .finished) : Kept (s.at call phase) := by
  refine kept_of_unsaved kept rfl rfl fun other tokens head done => ?_
  rw [phase_at] at done
  split at done
  · rename_i same
    subst same
    rcases inv.latest other tokens head with through | own
    · exact absurd through unfinished
    · exact absurd done (unanswered own)
  · exact done

theorem write_kept_iff (inv : Inv s) (kept : Kept s) {won : Bool}
    (stands : s.phase call = .saving entity seen won) :
    Kept { s.at call .finished with row := updateRow seen entity s.row } ↔
      (won = true → Completes s.row entity seen) ∧
        (won = false → ∀ other tokens, s.granted.head? = some (other, tokens) →
          s.phase other = .finished → Spares s.row entity seen) := by
  cases won with
  | true =>
    obtain ⟨tokens, winner⟩ := inv.winner call entity (by rw [stands]; rfl) (by rw [stands]; rfl)
    have exactly : Holds (updateRow seen entity s.row) tokens ↔ Completes s.row entity seen :=
      completes_iff winner.holds
    constructor
    · intro after
      refine ⟨fun _ => exactly.mp (after call tokens winner.latest ?_), fun lost => by cases lost⟩
      dsimp only
      rw [phase_at, if_pos rfl]
    · rintro ⟨completes, _⟩ other tokens' head _
      cases winner.latest.symm.trans head
      exact exactly.mpr (completes rfl)
  | false =>
    have other_ne {other : Nat} {tokens : MetaTokenSet}
        (head : s.granted.head? = some (other, tokens)) : other ≠ call := by
      rintro rfl
      rcases inv.latest other tokens head with done | own
      · cases stands.symm.trans done
      · rw [stands] at own
        cases own
    constructor
    · intro after
      refine ⟨fun won => (by cases won), fun _ other tokens head done => ?_⟩
      refine (spares_iff (kept other tokens head done)).mp (after other tokens head ?_)
      dsimp only
      rw [phase_at, if_neg (other_ne head)]
      exact done
    · rintro ⟨_, spares⟩ other tokens head done
      dsimp only at done
      rw [phase_at, if_neg (other_ne head)] at done
      exact (spares_iff (kept other tokens head done)).mpr (spares rfl other tokens head done)

theorem step_kept_iff {a : Act} (inv : Inv s) (kept : Kept s) (taken : Step s a t) :
    Kept t ↔ Undisturbed s a := by
  cases step_taken taken with
  | @write call entity seen won stands =>
    rw [write_kept_iff inv kept stands]
    constructor
    · intro undisturbed entity' seen' won' same
      cases stands.symm.trans same
      exact undisturbed
    · exact fun undisturbed => undisturbed entity seen won stands
  | wait => exact iff_of_true (kept_of_unsaved kept rfl rfl fun _ _ _ done => done) trivial
  | revoke unknown => exact iff_of_true (kept_of_unsaved kept rfl rfl fun _ _ _ done => done) trivial
  | @load call stands =>
    have lost : ¬ (s.phase call).won = true := by simp [stands, Phase.won]
    refine iff_of_true ?_ trivial
    unfold load
    split <;> exact kept_at inv kept (by simp [stands]) fun own => absurd own lost
  | failed stands => exact iff_of_true (kept_at inv kept (by simp [stands]) fun _ => by simp) trivial
  | granted stands rotates accepted fresh =>
    refine iff_of_true ?_ trivial
    -- The grant is the latest now, and its call is not through.
    intro other tokens head done
    cases head
    rw [phase_at, if_pos rfl] at done
    cases done
  | reread stands => exact iff_of_true (kept_at inv kept (by simp [stands]) fun _ => by simp) trivial

end

/-- Every call is through, or has not begun. -/
def Finished (s : State) : Prop := ∀ call, s.phase call = .waiting ∨ s.phase call = .finished

/-- The tokens of the latest grant are in the active row, from the save of its call on, exactly when
no save disturbs them; so they are when all calls are through. -/
theorem connection_kept_iff (clock : Int) (row : Row) (current : String)
    {steps : List (Transition State Act)} {s : State}
    (run : Run Step (start clock row current) steps s) :
    ((∀ x ∈ steps, Kept x.post) ↔ ∀ x ∈ steps, Undisturbed x.pre x.label) ∧
      ((∀ x ∈ steps, Undisturbed x.pre x.label) → Finished s →
        ∀ call tokens, s.granted.head? = some (call, tokens) → Holds s.row tokens) := by
  have initial : Inv (start clock row current) ∧ Kept (start clock row current) :=
    ⟨start_inv clock row current, start_kept clock row current⟩
  refine ⟨run.states_iff Kept Undisturbed initial.1 (fun _ _ _ inv taken => step_inv inv taken)
    initial.2 fun _ _ _ inv kept taken => step_kept_iff inv kept taken, ?_⟩
  intro undisturbed finished call tokens head
  obtain ⟨inv, kept⟩ := (run.invariant_of (I := fun s => Inv s ∧ Kept s)
    (fun x => Undisturbed x.pre x.label) initial (fun _ _ _ before taken met =>
      ⟨step_inv before.1 taken, (step_kept_iff before.1 before.2 taken).mpr met⟩) undisturbed).1
  refine kept call tokens head ?_
  rcases inv.latest call tokens head with done | own
  · exact done
  · rcases finished call with waits | done
    · rw [waits] at own
      cases own
    · exact done

/-! Two calls that find the token expired -/

/-- The connection, with a token of an hour ago. -/
def expired : Row
  | .isActive => true
  | .accessToken => some "EAAold"
  | .refreshToken => some "r0"
  | .tokenExpiresAt => some (0 : Int)
  | .scopes => none

def fresh : MetaTokenSet := ⟨"EAAnew", some "r1", some 7200000, none⟩

theorem finished_of_two {s : State} (zero : s.phase 0 = .finished) (one : s.phase 1 = .finished)
    (others : ∀ call, s.phase (call + 2) = .waiting) : Finished s := by
  intro call
  rcases call with _ | _ | call
  · exact .inr zero
  · exact .inr one
  · exact .inl (others call)

/-- The call that loses saves last: the connection is switched off, and its tokens are used up. -/
theorem connection_lost : ∃ steps s, Run Step (start 3600000 expired "r0") steps s ∧ Finished s ∧
    s.granted = [(0, fresh)] ∧ isActive s.row = false ∧ refreshToken s.row = some "r0" ∧
    s.current = "r1" ∧ ¬ Kept s := by
  let acts : List Act := [.load 0, .load 1, .request 0 (some fresh), .request 1 none, .reread 0,
    .write 0, .reread 1, .write 1]
  have run := @follow_run _ _ step (start 3600000 expired "r0") _ acts _ rfl
  refine ⟨_, _, run, finished_of_two rfl rfl fun _ => rfl, rfl, rfl, rfl, rfl, fun kept => ?_⟩
  cases (kept 0 fresh rfl rfl).1

/-- The call that loses saves first. -/
theorem connection_kept : ∃ steps s, Run Step (start 3600000 expired "r0") steps s ∧
    s.granted.head? = some (0, fresh) ∧ Holds s.row fresh := by
  let acts : List Act := [.load 0, .load 1, .request 0 (some fresh), .request 1 none, .reread 1,
    .write 1, .reread 0, .write 0]
  have run := @follow_run _ _ step (start 3600000 expired "r0") _ acts _ rfl
  refine ⟨_, _, run, rfl, (connection_kept_iff 3600000 expired "r0" run).2 (fun x taken => ?_)
    (finished_of_two rfl rfl fun _ => rfl) 0 fresh rfl⟩
  simp only [List.mem_cons, List.not_mem_nil, or_false] at taken
  rcases taken with rfl | rfl | rfl | rfl | rfl | rfl | rfl | rfl
  · trivial
  · trivial
  · trivial
  · trivial
  · trivial
  · intro entity seen won stands
    injection stands with _ _ lost
    subst lost
    refine ⟨fun won => (by cases won), fun _ other tokens head done => ?_⟩
    cases head
    cases done
  · trivial
  · intro entity seen won stands
    injection stands with _ read own
    subst read own
    exact ⟨fun _ k _ same => same, fun lost => by cases lost⟩

end Gomer.Refreshes
