import Gomer.Ai.Run
import Gomer.Lib.Fresh
import Gomer.Lib.Paired
import Gomer.Lib.RoundRobin
import Mathlib.Data.List.AList
import Mathlib.Data.List.Forall2

/-! `McpBridgeService.buildToolset` and `BridgedToolset`: the tools of the connected servers under
names of their own. -/
namespace Gomer.Ai.McpBridge

def maxCandidateTools : Nat := 200
def maxToolNameLength : Nat := 64

structure BridgedTool where
  exposedName : String
  remoteName : String
  server : RemoteMcpServer

structure BridgedToolset where
  byExposedName : AList fun _ : String => BridgedTool
  apps : List String
  tools : List ToolSpec

/-- A server with the tools that `listTools` finds; one that cannot be reached has none. -/
abbrev Listing := RemoteMcpServer × List ToolSpec

namespace BridgedToolset

variable (toolset : BridgedToolset)

def has (name : String) : Bool := (toolset.byExposedName.lookup name).isSome

def appFor (name : String) : String :=
  ((toolset.byExposedName.lookup name).map fun tool => tool.server.appSlug).getD "app"

end BridgedToolset

/-- The toolset as the routing of a call reads it: the app slug of each name. -/
def BridgedToolset.slugs (toolset : BridgedToolset) : Ai.BridgedToolset :=
  ⟨toolset.byExposedName.entries.map fun entry => (entry.1, entry.2.server.appSlug),
    toolset.apps, toolset.tools⟩

/-- An app is listed once, in the order of arrival. -/
def announce (apps : List String) (slug : String) : List String :=
  if apps.contains slug then apps else apps ++ [slug]

def keepTool (toolset narrowed : BridgedToolset) (tool : ToolSpec) : BridgedToolset :=
  match toolset.byExposedName.lookup tool.name with
  | none => narrowed
  | some routing =>
    { narrowed with
      byExposedName := narrowed.byExposedName.insert tool.name routing
      apps := announce narrowed.apps routing.server.appSlug }

def BridgedToolset.narrowTo (toolset : BridgedToolset) (keep : List ToolSpec) (limit : Nat) :
    BridgedToolset :=
  let tools := keep.take limit
  tools.foldl (keepTool toolset) ⟨∅, [], tools⟩

/-! `exposedName` -/

def isNameChar (c : Char) : Bool := c.isAlphanum || c == '_' || c == '-'

/-- The pattern has no `u` flag: it replaces each UTF-16 unit. -/
def sanitize (value : String) : List Char :=
  value.toList.flatMap fun c =>
    if isNameChar c then [c] else List.replicate (if c.toNat < 65536 then 1 else 2) '_'

def baseName (appSlug remoteName : String) : List Char :=
  (sanitize appSlug ++ ['_', '_'] ++ sanitize remoteName).take maxToolNameLength

def tail (suffix : Nat) : List Char := '_' :: Nat.toDigits 10 suffix

/-- The end of the name makes room for the suffix, also for one that it already has. -/
def withSuffix (suffix : Nat) (name : List Char) : List Char :=
  name.take (maxToolNameLength - (tail suffix).length) ++ tail suffix

def exposedName (fuel : Nat) (appSlug remoteName : String) (taken : String → Bool) :
    Option String :=
  (Fresh.search (fun name => taken (String.ofList name)) withSuffix fuel 2
    (baseName appSlug remoteName)).map String.ofList

/-! `buildToolset` -/

def expose (toolset : BridgedToolset) (item : RemoteMcpServer × ToolSpec) (exposed : String) :
    BridgedToolset :=
  ⟨toolset.byExposedName.insert exposed ⟨exposed, item.2.name, item.1⟩,
    announce toolset.apps item.1.appSlug,
    toolset.tools ++ [⟨exposed, item.2.description, item.2.parameters⟩]⟩

def contribute (fuel : Nat) (toolset : BridgedToolset) (item : RemoteMcpServer × ToolSpec) :
    Option BridgedToolset :=
  (exposedName fuel item.1.appSlug item.2.name toolset.has).map (expose toolset item)

/-- The `for` loop: one tool of each queue, until the ceiling is reached. -/
def turn (fuel : Nat) : BridgedToolset → List Listing → Option (BridgedToolset × List Listing)
  | toolset, [] => some (toolset, [])
  | toolset, (server, remaining) :: queues =>
    if maxCandidateTools ≤ toolset.tools.length then some (toolset, (server, remaining) :: queues)
    else
      match remaining with
      | [] => do
        let (toolset, queues) ← turn fuel toolset queues
        some (toolset, (server, []) :: queues)
      | remote :: remaining => do
        let toolset ← contribute fuel toolset (server, remote)
        let (toolset, queues) ← turn fuel toolset queues
        some (toolset, (server, remaining) :: queues)

/-- The `while` loop. -/
def turns (fuel : Nat) : Nat → BridgedToolset → List Listing → Option BridgedToolset
  | 0, _, _ => none
  | n + 1, toolset, queues =>
    if toolset.tools.length < maxCandidateTools ∧ queues.any (fun queue => !queue.2.isEmpty) then do
      let (toolset, queues) ← turn fuel toolset queues
      turns fuel n toolset queues
    else some toolset

def buildToolset (fuel : Nat) (listings : List Listing) : Option BridgedToolset :=
  turns fuel fuel ⟨∅, [], []⟩ (listings.filter fun listing => !listing.2.isEmpty)

/-! Names -/

theorem isNameChar_tail {suffix : Nat} {c : Char} (member : c ∈ tail suffix) :
    isNameChar c = true := by
  rcases List.mem_cons.mp member with rfl | digit
  · decide
  · have isDigit := Nat.isDigit_of_mem_toDigits (by decide) (by decide) digit
    simp [isNameChar, Char.isAlphanum, isDigit]

theorem isNameChar_sanitize {value : String} {c : Char} (member : c ∈ sanitize value) :
    isNameChar c = true := by
  obtain ⟨original, _, member⟩ := List.mem_flatMap.mp member
  split at member
  · rename_i allowed
    rwa [List.mem_singleton.mp member]
  · rw [(List.mem_replicate.mp member).2]
    decide

theorem isNameChar_baseName {appSlug remoteName : String} {c : Char}
    (member : c ∈ baseName appSlug remoteName) : isNameChar c = true := by
  have member := List.mem_of_mem_take member
  rcases List.mem_append.mp member with front | remote
  · rcases List.mem_append.mp front with slug | underscore
    · exact isNameChar_sanitize slug
    · have here : c = '_' := by simpa using underscore
      rw [here]
      decide
  · exact isNameChar_sanitize remote

theorem isNameChar_withSuffix {suffix : Nat} {name : List Char}
    (clean : ∀ c ∈ name, isNameChar c = true) :
    ∀ c ∈ withSuffix suffix name, isNameChar c = true := by
  intro c member
  rcases List.mem_append.mp member with kept | added
  · exact clean c (List.mem_of_mem_take kept)
  · exact isNameChar_tail added

theorem tail_length {suffix : Nat} (small : suffix < 1000) : (tail suffix).length ≤ 4 := by
  have digits : (Nat.toDigits 10 suffix).length ≤ 3 :=
    (Nat.length_toDigits_le_iff (by decide) (by decide)).mpr (by omega)
  simp only [tail, List.length_cons]
  omega

theorem withSuffix_length {suffix : Nat} (small : suffix < 1000) (name : List Char) :
    (withSuffix suffix name).length ≤ maxToolNameLength := by
  have short := tail_length small
  simp only [withSuffix, List.length_append, List.length_take, maxToolNameLength]
  omega

/-- The part of a name that every suffix of up to three digits leaves alone. -/
theorem withSuffix_prefix {suffix : Nat} (small : suffix < 1000) {front name : List Char}
    (short : front.length ≤ 60) (starts : front <+: name) : front <+: withSuffix suffix name := by
  have room := tail_length small
  have kept : front <+: name.take (maxToolNameLength - (tail suffix).length) := by
    refine List.prefix_take_iff.mpr ⟨starts, ?_⟩
    simp only [maxToolNameLength]
    omega
  exact kept.trans (List.prefix_append _ _)

/-- A short slug leaves a double underscore in the first 52 characters: at the first character
of the slug that is two UTF-16 units long, or after the slug. -/
theorem sanitize_front (value : String) : ∃ front : List Char, front.length ≤ value.length ∧
    front ++ ['_', '_'] <+: sanitize value ++ ['_', '_'] := by
  have chars : ∀ cs : List Char, ∃ front : List Char, front.length ≤ cs.length ∧
      front ++ ['_', '_'] <+: (cs.flatMap fun c =>
        if isNameChar c then [c] else List.replicate (if c.toNat < 65536 then 1 else 2) '_') ++
          ['_', '_'] := by
    intro cs
    induction cs with
    | nil => exact ⟨[], Nat.le_refl _, List.prefix_refl _⟩
    | cons c cs ih =>
      obtain ⟨front, short, starts⟩ := ih
      have single : ∀ d : Char, ∃ extended : List Char, extended.length ≤ (c :: cs).length ∧
          extended ++ ['_', '_'] <+: [d] ++ (cs.flatMap fun c =>
            if isNameChar c then [c] else List.replicate (if c.toNat < 65536 then 1 else 2) '_') ++
              ['_', '_'] :=
        fun d => ⟨d :: front, Nat.succ_le_succ short, List.prefix_cons_inj d |>.mpr starts⟩
      rw [List.flatMap_cons]
      by_cases allowed : isNameChar c = true
      · rw [if_pos allowed]
        exact single c
      · rw [if_neg allowed]
        by_cases unit : c.toNat < 65536
        · rw [if_pos unit]
          exact single '_'
        · rw [if_neg unit]
          exact ⟨[], Nat.zero_le _, ⟨_, rfl⟩⟩
  obtain ⟨front, short, starts⟩ := chars value.toList
  exact ⟨front, short, starts⟩

/-- The mark a suffix leaves: what stands after the last underscore. -/
theorem withSuffix_mark (suffix : Nat) (name : List Char) :
    (withSuffix suffix name).reverse.takeWhile (· != '_') = (Nat.toDigits 10 suffix).reverse := by
  have digits : ∀ c ∈ (Nat.toDigits 10 suffix).reverse, (c != '_') = true := by
    intro c member
    rw [bne_iff_ne]
    rintro rfl
    exact Nat.underscore_not_in_toDigits (List.mem_reverse.mp member)
  rw [withSuffix, tail, List.reverse_append, List.reverse_cons, List.append_assoc,
    List.takeWhile_append_of_pos digits]
  simp

theorem digits_injective :
    Function.Injective fun suffix : Nat => (Nat.toDigits 10 suffix).reverse := by
  intro a b same
  have digits := List.reverse_injective same
  rw [← Nat.ofDigitChars_toDigits (b := 10) (n := a) (by decide) (by decide), digits]
  exact Nat.ofDigitChars_toDigits (by decide) (by decide)

/-- What every name that `exposedName` tries has, and keeps through three-digit suffixes. -/
structure WellNamed (appSlug : String) (name : List Char) : Prop where
  short : name.length ≤ maxToolNameLength
  clean : ∀ c ∈ name, isNameChar c = true
  marked : appSlug.length ≤ 50 → ['_', '_'] <:+: name

theorem wellNamed_candidate (appSlug remoteName : String) {k : Nat} (small : k < 900) :
    WellNamed appSlug (Fresh.candidate withSuffix 2 (baseName appSlug remoteName) k) := by
  obtain ⟨front, frontShort, front_starts⟩ := sanitize_front appSlug
  -- the marked front of the name, which the suffixes do not reach
  have inside : appSlug.length ≤ 50 → ∀ j ≤ k,
      front ++ ['_', '_'] <+: Fresh.candidate withSuffix 2 (baseName appSlug remoteName) j := by
    intro slug j tried
    have size : (front ++ ['_', '_']).length ≤ 52 := by
      simp only [List.length_append, List.length_cons, List.length_nil]
      omega
    induction j with
    | zero =>
      refine List.prefix_take_iff.mpr ⟨front_starts.trans (List.prefix_append _ _), ?_⟩
      simp only [maxToolNameLength]
      omega
    | succ j ih =>
      rw [Fresh.candidate_succ]
      exact withSuffix_prefix (by omega) (by omega) (ih (by omega))
  refine ⟨?_, ?_, fun slug => ?_⟩
  · cases k with
    | zero => exact List.length_take_le _ _
    | succ k =>
      rw [Fresh.candidate_succ]
      exact withSuffix_length (by omega) _
  · clear inside small
    induction k with
    | zero => exact fun c => isNameChar_baseName
    | succ k ih =>
      rw [Fresh.candidate_succ]
      exact isNameChar_withSuffix ih
  · exact (List.suffix_append _ _).isInfix.trans (inside slug k (Nat.le_refl k)).isInfix

/-- Within a test for each name that is taken, and two more, a free name is found. -/
theorem exposedName_some {fuel : Nat} {taken : String → Bool} {names : List String}
    (finite : ∀ name, taken name = true → name ∈ names) (few : names.length < 800)
    (enough : names.length + 2 ≤ fuel) (appSlug remoteName : String) :
    ∃ exposed, exposedName fuel appSlug remoteName taken = some exposed ∧ taken exposed = false ∧
      WellNamed appSlug exposed.toList := by
  have inList : ∀ name : List Char, taken (String.ofList name) = true →
      name ∈ names.map String.toList := by
    intro name used
    exact List.mem_map.mpr ⟨_, finite _ used, String.toList_ofList⟩
  have found := Fresh.search_isSome (fun name => name.reverse.takeWhile (· != '_')) _
    withSuffix_mark digits_injective (names.map String.toList) inList
    (Nat.le_of_eq (by rw [List.length_map])) 2 (baseName appSlug remoteName)
  obtain ⟨name, run⟩ := Option.isSome_iff_exists.mp found
  obtain ⟨free, k, tried, same⟩ := Fresh.search_some run
  refine ⟨String.ofList name, ?_, free, ?_⟩
  · rw [exposedName, Fresh.search_mono run enough]
    rfl
  · rw [String.toList_ofList, same]
    exact wellNamed_candidate appSlug remoteName (by omega)

theorem mem_announce {apps : List String} {slug app : String} :
    app ∈ announce apps slug ↔ app ∈ apps ∨ app = slug := by
  unfold announce
  split
  · rename_i known
    have known : slug ∈ apps := by simpa using known
    constructor
    · exact Or.inl
    · rintro (old | rfl)
      · exact old
      · exact known
  · simp

theorem announce_nodup {apps : List String} (once : apps.Nodup) (slug : String) :
    (announce apps slug).Nodup := by
  unfold announce
  split
  · exact once
  · rename_i new
    have new : slug ∉ apps := by simpa using new
    exact List.nodup_append.mpr ⟨once, List.nodup_singleton _, by
      rintro app old _ here rfl
      exact new (List.mem_singleton.mp here ▸ old)⟩

/-! What a toolset says of the tools it was built from -/

/-- `tool` was made from `item`: it is routed there, under a good name. -/
structure MadeFrom (toolset : BridgedToolset) (item : RemoteMcpServer × ToolSpec) (tool : ToolSpec) :
    Prop where
  routed : toolset.byExposedName.lookup tool.name = some ⟨tool.name, item.2.name, item.1⟩
  description : tool.description = item.2.description
  parameters : tool.parameters = item.2.parameters
  named : WellNamed item.1.appSlug tool.name.toList

theorem MadeFrom.expose {toolset : BridgedToolset} {item other : RemoteMcpServer × ToolSpec}
    {tool : ToolSpec} {exposed : String} (made : MadeFrom toolset item tool)
    (fresh : exposed ∉ toolset.byExposedName) : MadeFrom (expose toolset other exposed) item tool := by
  have differ : tool.name ≠ exposed := by
    rintro rfl
    exact fresh (AList.lookup_isSome.mp (by rw [made.routed]; rfl))
  refine ⟨?_, made.description, made.parameters, made.named⟩
  rw [McpBridge.expose, AList.lookup_insert_ne differ]
  exact made.routed

structure Exposes (items : List (RemoteMcpServer × ToolSpec)) (toolset : BridgedToolset) : Prop where
  made : List.Forall₂ (MadeFrom toolset) items toolset.tools
  distinct : (toolset.tools.map ToolSpec.name).Nodup
  keys : toolset.byExposedName.keys.Perm (toolset.tools.map ToolSpec.name)
  announced : ∀ app, app ∈ toolset.apps ↔ ∃ item ∈ items, item.1.appSlug = app
  once : toolset.apps.Nodup

theorem Exposes.length {items : List (RemoteMcpServer × ToolSpec)} {toolset : BridgedToolset}
    (exposes : Exposes items toolset) : toolset.tools.length = items.length :=
  exposes.made.length_eq.symm

theorem Exposes.has_iff {items : List (RemoteMcpServer × ToolSpec)} {toolset : BridgedToolset}
    (exposes : Exposes items toolset) (name : String) :
    toolset.has name = true ↔ name ∈ toolset.tools.map ToolSpec.name := by
  rw [BridgedToolset.has, AList.lookup_isSome, AList.mem_keys, exposes.keys.mem_iff]

theorem Exposes.made_of {items : List (RemoteMcpServer × ToolSpec)} {toolset : BridgedToolset}
    (exposes : Exposes items toolset) {tool : ToolSpec} (member : tool ∈ toolset.tools) :
    ∃ item ∈ items, MadeFrom toolset item tool :=
  Paired.exists_left exposes.made member

theorem contribute_exposes {fuel : Nat} {items : List (RemoteMcpServer × ToolSpec)}
    {toolset : BridgedToolset} (exposes : Exposes items toolset)
    (room : toolset.tools.length < maxCandidateTools) (enough : maxCandidateTools + 2 ≤ fuel)
    (item : RemoteMcpServer × ToolSpec) :
    ∃ next, contribute fuel toolset item = some next ∧ Exposes (items ++ [item]) next ∧
      next.tools.length = toolset.tools.length + 1 := by
  have few : (toolset.tools.map ToolSpec.name).length < 200 := by
    rw [List.length_map]
    exact room
  obtain ⟨exposed, found, free, named⟩ := exposedName_some
    (fun name used => (exposes.has_iff name).mp used) (by omega)
    (Nat.le_trans (by simp only [maxCandidateTools]; omega) enough) item.1.appSlug item.2.name
  have fresh : exposed ∉ toolset.tools.map ToolSpec.name := by
    rw [← exposes.has_iff, free]
    exact Bool.false_ne_true
  have newKey : exposed ∉ toolset.byExposedName := by
    rw [AList.mem_keys, exposes.keys.mem_iff]
    exact fresh
  refine ⟨expose toolset item exposed, by rw [contribute, found]; rfl,
    ⟨?_, ?_, ?_, ?_, announce_nodup exposes.once _⟩, List.length_append⟩
  · refine List.rel_append (exposes.made.imp fun _ _ made => made.expose newKey)
      (.cons ⟨AList.lookup_insert _, rfl, rfl, named⟩ .nil)
  · rw [expose, List.map_append]
    refine List.nodup_append.mpr ⟨exposes.distinct, List.nodup_singleton _, ?_⟩
    rintro name old _ new rfl
    rw [List.mem_singleton.mp new] at old
    exact fresh old
  · have oldKey : exposed ∉ toolset.byExposedName.keys := mt AList.mem_keys.mpr newKey
    rw [expose, AList.keys_insert, List.erase_of_not_mem oldKey, List.map_append]
    exact (exposes.keys.cons exposed).trans (List.perm_append_singleton _ _).symm
  · intro app
    rw [expose, mem_announce, exposes.announced]
    simp [or_and_right, exists_or, eq_comm]

/-! The loops -/

theorem turn_exposes {fuel : Nat} (enough : maxCandidateTools + 2 ≤ fuel) (queues : List Listing)
    {items : List (RemoteMcpServer × ToolSpec)} {toolset : BridgedToolset}
    (exposes : Exposes items toolset) :
    ∃ next left, turn fuel toolset queues = some (next, left) ∧
      Exposes (items ++ (RoundRobin.heads queues).take (maxCandidateTools - items.length)) next ∧
      (next.tools.length < maxCandidateTools → left = RoundRobin.tails queues) := by
  induction queues generalizing items toolset with
  | nil => exact ⟨toolset, [], rfl, by simpa using exposes, fun _ => rfl⟩
  | cons queue queues ih =>
    obtain ⟨server, remaining⟩ := queue
    have size := exposes.length
    by_cases full : maxCandidateTools ≤ toolset.tools.length
    · refine ⟨toolset, (server, remaining) :: queues, ?_, ?_, fun room =>
        absurd full (Nat.not_le.mpr room)⟩
      · cases remaining <;> rw [turn, if_pos full]
      · rw [show maxCandidateTools - items.length = 0 by omega, List.take_zero, List.append_nil]
        exact exposes
    · cases remaining with
      | nil =>
        obtain ⟨next, left, run, exposed, rest⟩ := ih exposes
        refine ⟨next, (server, []) :: left, ?_, exposed, fun room => ?_⟩
        · rw [turn, if_neg full, run]
          rfl
        · rw [rest room]
          rfl
      | cons remote remaining =>
        obtain ⟨grown, added, exposed, _⟩ :=
          contribute_exposes exposes (Nat.not_le.mp full) enough (server, remote)
        obtain ⟨next, left, run, exposed, rest⟩ := ih exposed
        refine ⟨next, (server, remaining) :: left, ?_, ?_, fun room => ?_⟩
        · rw [turn, if_neg full, added]
          simp only [Option.bind_eq_bind, Option.bind_some, run]
        · rw [List.length_append, List.length_singleton, List.append_assoc] at exposed
          rw [RoundRobin.heads_cons_cons,
            show maxCandidateTools - items.length = maxCandidateTools - (items.length + 1) + 1 by
              omega, List.take_succ_cons]
          exact exposed
        · rw [rest room]
          rfl

theorem turns_exposes {fuel : Nat} (enough : maxCandidateTools + 2 ≤ fuel) (n : Nat)
    (queues : List Listing) (rounds : RoundRobin.total queues < n)
    {items : List (RemoteMcpServer × ToolSpec)} {toolset : BridgedToolset}
    (exposes : Exposes items toolset) :
    ∃ next, turns fuel n toolset queues = some next ∧
      Exposes (items ++ (RoundRobin.deal n queues).take (maxCandidateTools - items.length)) next := by
  induction n generalizing queues items toolset with
  | zero => exact absurd rounds (Nat.not_lt_zero _)
  | succ n ih =>
    have size := exposes.length
    rw [turns]
    split
    · rename_i more
      obtain ⟨next, left, run, exposed, rest⟩ := turn_exposes enough queues exposes
      have grown := exposed.length
      rw [List.length_append, List.length_take] at grown
      have taken := RoundRobin.heads_total queues
      have busy : RoundRobin.total queues ≠ 0 := by
        rw [Ne, RoundRobin.total_eq_zero, more.2]
        exact Bool.false_ne_true.symm
      have some_head : (RoundRobin.heads queues).length ≠ 0 := by
        rw [Ne, List.length_eq_zero_iff, RoundRobin.heads_eq_nil]
        exact busy
      simp only [run, Option.bind_eq_bind, Option.bind_some]
      by_cases room : next.tools.length < maxCandidateTools
      · rw [List.take_of_length_le (by omega)] at exposed
        obtain ⟨last, runs, exposed⟩ := ih (RoundRobin.tails queues) (by omega) exposed
        rw [rest room]
        refine ⟨last, runs, ?_⟩
        rw [RoundRobin.deal, List.take_append, List.take_of_length_le (by omega), Nat.sub_sub,
          ← List.length_append, ← List.append_assoc]
        exact exposed
      · obtain ⟨k, rfl⟩ : ∃ k, n = k + 1 := ⟨n - 1, by omega⟩
        refine ⟨next, ?_, ?_⟩
        · rw [turns, if_neg fun both => room both.1]
        · rw [RoundRobin.deal, List.take_append_of_le_length (by omega)]
          exact exposed
    · rename_i stop
      refine ⟨toolset, rfl, ?_⟩
      have nothing : (RoundRobin.deal (n + 1) queues).take (maxCandidateTools - items.length) = [] := by
        by_cases room : toolset.tools.length < maxCandidateTools
        · have empty : RoundRobin.total queues = 0 := by
            rw [RoundRobin.total_eq_zero]
            simpa [room] using stop
          have none : RoundRobin.deal (n + 1) queues = [] := by
            rw [← List.length_eq_zero_iff, RoundRobin.deal_length (by omega), empty]
          rw [none, List.take_nil]
        · rw [show maxCandidateTools - items.length = 0 by omega, List.take_zero]
      rw [nothing, List.append_nil]
      exact exposes

/-! More fuel changes nothing -/

theorem contribute_mono {fuel more : Nat} (enough : fuel ≤ more) {toolset next : BridgedToolset}
    {item : RemoteMcpServer × ToolSpec} (run : contribute fuel toolset item = some next) :
    contribute more toolset item = some next := by
  obtain ⟨exposed, found, rfl⟩ := Option.map_eq_some_iff.mp run
  obtain ⟨name, searched, rfl⟩ := Option.map_eq_some_iff.mp found
  rw [contribute, exposedName, Fresh.search_mono searched enough]
  rfl

theorem turn_mono {fuel more : Nat} (enough : fuel ≤ more) {queues left : List Listing}
    {toolset next : BridgedToolset} (run : turn fuel toolset queues = some (next, left)) :
    turn more toolset queues = some (next, left) := by
  induction queues generalizing toolset next left with
  | nil => exact run
  | cons queue queues ih =>
    obtain ⟨server, remaining⟩ := queue
    cases remaining with
    | nil =>
      rw [turn] at run ⊢
      split
      · rename_i full
        rwa [if_pos full] at run
      · rename_i room
        rw [if_neg room] at run
        simp only [Option.bind_eq_bind, Option.bind_eq_some_iff] at run ⊢
        obtain ⟨⟨toolset', queues'⟩, rest, same⟩ := run
        exact ⟨_, ih rest, same⟩
    | cons remote remaining =>
      rw [turn] at run ⊢
      split
      · rename_i full
        rwa [if_pos full] at run
      · rename_i room
        rw [if_neg room] at run
        simp only [Option.bind_eq_bind, Option.bind_eq_some_iff] at run ⊢
        obtain ⟨grown, added, ⟨toolset', queues'⟩, rest, same⟩ := run
        exact ⟨grown, contribute_mono enough added, _, ih rest, same⟩

theorem turns_mono {fuel more n m : Nat} (enough : fuel ≤ more) (rounds : n ≤ m)
    {queues : List Listing} {toolset next : BridgedToolset}
    (run : turns fuel n toolset queues = some next) : turns more m toolset queues = some next := by
  induction n generalizing m queues toolset with
  | zero => cases run
  | succ n ih =>
    obtain ⟨m, rfl⟩ : ∃ k, m = k + 1 := ⟨m - 1, by omega⟩
    rw [turns] at run ⊢
    split
    · rename_i busy
      rw [if_pos busy] at run
      simp only [Option.bind_eq_bind, Option.bind_eq_some_iff] at run ⊢
      obtain ⟨⟨grown, left⟩, taken, rest⟩ := run
      exact ⟨_, turn_mono enough taken, ih (by omega) rest⟩
    · rename_i done
      rwa [if_neg done] at run

/-! Where the tools come from -/

/-- The listings with the positions of the servers and of their tools. -/
def numbered (listings : List Listing) : List ((Nat × RemoteMcpServer) × List (Nat × ToolSpec)) :=
  listings.zipIdx.map fun entry => ((entry.2, entry.1.1), entry.1.2.zipIdx.map Prod.swap)

def position (item : (Nat × RemoteMcpServer) × Nat × ToolSpec) : Nat × Nat := (item.1.1, item.2.1)

theorem numbered_values (listings : List Listing) :
    (numbered listings).map (Prod.map Prod.snd (List.map Prod.snd)) = listings := by
  have values : ∀ tools : List ToolSpec,
      (tools.zipIdx.map Prod.swap).map Prod.snd = tools := fun tools => by
    rw [List.map_map]
    exact List.zipIdx_map_fst 0 tools
  have each : ∀ entry : Listing × Nat, Prod.map Prod.snd (List.map Prod.snd)
      ((entry.2, entry.1.1), entry.1.2.zipIdx.map Prod.swap) = entry.1 := fun entry =>
    Prod.ext rfl (values entry.1.2)
  simp only [numbered, List.map_map, Function.comp_def, each]
  exact List.zipIdx_map_fst 0 listings

theorem mem_drained_numbered {listings : List Listing}
    {item : (Nat × RemoteMcpServer) × Nat × ToolSpec}
    (member : item ∈ RoundRobin.drained (numbered listings)) :
    ∃ tools, listings[item.1.1]? = some (item.1.2, tools) ∧ tools[item.2.1]? = some item.2.2 := by
  obtain ⟨queue, inQueues, inQueue⟩ := List.mem_flatMap.mp member
  obtain ⟨⟨⟨server, tools⟩, i⟩, listed, rfl⟩ := List.mem_map.mp inQueues
  obtain ⟨entry, inTools, rfl⟩ := List.mem_map.mp inQueue
  obtain ⟨⟨remote, j⟩, tool, rfl⟩ := List.mem_map.mp inTools
  exact ⟨tools, List.mem_zipIdx_iff_getElem?.mp listed, List.mem_zipIdx_iff_getElem?.mp tool⟩

theorem positions_nodup (listings : List Listing) :
    ((RoundRobin.drained (numbered listings)).map position).Nodup := by
  rw [RoundRobin.drained, List.map_flatMap, List.nodup_flatMap]
  constructor
  · intro queue member
    obtain ⟨⟨⟨server, tools⟩, i⟩, _, rfl⟩ := List.mem_map.mp member
    have ordered : (tools.zipIdx.map Prod.snd).Nodup := by
      rw [List.zipIdx_map_snd]
      exact List.nodup_range'
    have pairs := ordered.map (Prod.mk_right_injective i)
    simpa only [List.map_map, Function.comp_def, position, Prod.fst_swap] using pairs
  · have keys : ((numbered listings).map fun queue => queue.1.1).Nodup := by
      simp only [numbered, List.map_map, Function.comp_def]
      rw [show (listings.zipIdx.map fun entry => entry.2) = listings.zipIdx.map Prod.snd from rfl,
        List.zipIdx_map_snd]
      exact List.nodup_range'
    refine (List.pairwise_map.mp keys).imp fun {first second} differ => ?_
    intro pick here there
    obtain ⟨a, _, rfl⟩ := List.mem_map.mp (by simpa only [List.map_map] using here)
    obtain ⟨b, _, same⟩ := List.mem_map.mp (by simpa only [List.map_map] using there)
    exact differ (congrArg Prod.fst same).symm

/-- How many of the tools come from one server. -/
def contribution (picks : List (Nat × Nat)) (i : Nat) : Nat := picks.countP fun pick => pick.1 = i

/-- `tool` is the remote tool at `pick`, under a name of its own. -/
def RoutesTo (listings : List Listing) (toolset : BridgedToolset) (pick : Nat × Nat)
    (tool : ToolSpec) : Prop :=
  ∃ server tools original, listings[pick.1]? = some (server, tools) ∧
    tools[pick.2]? = some original ∧
    toolset.byExposedName.lookup tool.name = some ⟨tool.name, original.name, server⟩ ∧
    tool.description = original.description ∧ tool.parameters = original.parameters

/-- The toolset of `listings`, made of the remote tools at `picks`. -/
structure Bridges (listings : List Listing) (toolset : BridgedToolset) (picks : List (Nat × Nat)) :
    Prop where
  count : toolset.tools.length =
    min maxCandidateTools (listings.map fun listing => listing.2.length).sum
  distinct : (toolset.tools.map ToolSpec.name).Nodup
  wellNamed : ∀ tool ∈ toolset.tools,
    tool.name.length ≤ maxToolNameLength ∧ tool.name.toList.all isNameChar = true
  routed : List.Forall₂ (RoutesTo listings toolset) picks toolset.tools
  once : picks.Nodup
  fair : ∀ i j server tools other others, listings[i]? = some (server, tools) →
    listings[j]? = some (other, others) → contribution picks i + 1 < contribution picks j →
      contribution picks i = tools.length
  unshadowed : (∀ listing ∈ listings, listing.1.appSlug.length ≤ 50) →
    ∀ name ∈ localToolNames, toolset.has name = false ∧
      ∀ confirmVia world pending spaces call, call.name = name →
        runTool confirmVia world pending spaces call (some toolset.slugs) =
          runLocalTool confirmVia world pending spaces call

/-- Tools, routing and announced apps say the same. -/
structure Agrees (toolset : BridgedToolset) : Prop where
  routed : ∀ name, toolset.has name = true ↔ name ∈ toolset.tools.map ToolSpec.name
  announced : ∀ app, app ∈ toolset.apps ↔ ∃ tool ∈ toolset.tools, toolset.appFor tool.name = app
  once : toolset.apps.Nodup

theorem Exposes.agrees {items : List (RemoteMcpServer × ToolSpec)} {toolset : BridgedToolset}
    (exposes : Exposes items toolset) : Agrees toolset := by
  refine ⟨exposes.has_iff, fun app => ?_, exposes.once⟩
  rw [exposes.announced]
  refine Paired.exists_iff exposes.made fun item tool made => ?_
  have slug : toolset.appFor tool.name = item.1.appSlug := by
    rw [BridgedToolset.appFor, made.routed]
    rfl
  rw [slug]

/-! `narrowTo` -/

/-- What the loop over `done` leaves. -/
structure Narrowed (toolset narrowed : BridgedToolset) (done : List ToolSpec) : Prop where
  routed : ∀ name, narrowed.byExposedName.lookup name =
    if name ∈ done.map ToolSpec.name then toolset.byExposedName.lookup name else none
  announced : ∀ app, app ∈ narrowed.apps ↔ ∃ tool ∈ done,
    (toolset.byExposedName.lookup tool.name).map (fun routing => routing.server.appSlug) = some app
  once : narrowed.apps.Nodup

theorem keepTool_narrowed {toolset narrowed : BridgedToolset} {done : List ToolSpec}
    (state : Narrowed toolset narrowed done) (tool : ToolSpec) :
    Narrowed toolset (keepTool toolset narrowed tool) (done ++ [tool]) := by
  cases found : toolset.byExposedName.lookup tool.name with
  | none =>
    rw [keepTool, found]
    refine ⟨fun name => ?_, fun app => ?_, state.once⟩
    · rw [state.routed, List.map_append]
      by_cases here : name = tool.name
      · subst here
        simp [found]
      · simp [here]
    · rw [state.announced]
      simp [or_and_right, exists_or, found]
  | some routing =>
    rw [keepTool, found]
    refine ⟨fun name => ?_, fun app => ?_, announce_nodup state.once _⟩
    · dsimp only
      by_cases here : name = tool.name
      · subst here
        simp [found]
      · rw [AList.lookup_insert_ne here, state.routed, List.map_append]
        simp [here]
    · dsimp only
      rw [mem_announce, state.announced]
      simp [or_and_right, exists_or, found, eq_comm]

theorem keepTool_tools (toolset narrowed : BridgedToolset) (tool : ToolSpec) :
    (keepTool toolset narrowed tool).tools = narrowed.tools := by
  unfold keepTool
  split <;> rfl

theorem narrowTo_narrowed (toolset : BridgedToolset) (keep : List ToolSpec) (limit : Nat) :
    (toolset.narrowTo keep limit).tools = keep.take limit ∧
      Narrowed toolset (toolset.narrowTo keep limit) (keep.take limit) := by
  have loop : ∀ (more done : List ToolSpec) (narrowed : BridgedToolset),
      Narrowed toolset narrowed done →
        (more.foldl (keepTool toolset) narrowed).tools = narrowed.tools ∧
          Narrowed toolset (more.foldl (keepTool toolset) narrowed) (done ++ more) := by
    intro more
    induction more with
    | nil => exact fun done narrowed state => ⟨rfl, by simpa using state⟩
    | cons tool more ih =>
      intro done narrowed state
      obtain ⟨tools, last⟩ := ih (done ++ [tool]) _ (keepTool_narrowed state tool)
      rw [keepTool_tools] at tools
      rw [List.append_assoc] at last
      exact ⟨tools, last⟩
  have start : Narrowed toolset ⟨∅, [], keep.take limit⟩ [] :=
    ⟨fun name => by simp, fun app => by simp, List.nodup_nil⟩
  exact loop (keep.take limit) [] _ start

theorem narrowTo_agrees {toolset : BridgedToolset} (agrees : Agrees toolset)
    {keep : List ToolSpec} (known : keep.Sublist toolset.tools) (limit : Nat) :
    (toolset.narrowTo keep limit).tools = keep.take limit ∧
      Agrees (toolset.narrowTo keep limit) ∧
      ∀ tool ∈ keep.take limit, (toolset.narrowTo keep limit).byExposedName.lookup tool.name =
        toolset.byExposedName.lookup tool.name := by
  obtain ⟨tools, state⟩ := narrowTo_narrowed toolset keep limit
  have routing : ∀ tool ∈ keep.take limit,
      ∃ routing, toolset.byExposedName.lookup tool.name = some routing := by
    intro tool kept
    have listed : tool ∈ toolset.tools := known.subset (List.mem_of_mem_take kept)
    exact Option.isSome_iff_exists.mp ((agrees.routed _).mpr (List.mem_map_of_mem listed))
  have same : ∀ tool ∈ keep.take limit,
      (toolset.narrowTo keep limit).byExposedName.lookup tool.name =
        toolset.byExposedName.lookup tool.name := by
    intro tool kept
    rw [state.routed, if_pos (List.mem_map_of_mem kept)]
  refine ⟨tools, ⟨fun name => ?_, fun app => ?_, state.once⟩, same⟩
  · rw [tools, BridgedToolset.has, state.routed]
    constructor
    · intro found
      by_contra missing
      rw [if_neg missing] at found
      cases found
    · intro kept
      obtain ⟨tool, member, rfl⟩ := List.mem_map.mp kept
      obtain ⟨routing, found⟩ := routing tool member
      rw [if_pos kept, found]
      rfl
  · rw [tools, state.announced]
    constructor
    · rintro ⟨tool, kept, found⟩
      refine ⟨tool, kept, ?_⟩
      rw [BridgedToolset.appFor, same tool kept, found]
      rfl
    · rintro ⟨tool, kept, found⟩
      obtain ⟨routing, here⟩ := routing tool kept
      refine ⟨tool, kept, ?_⟩
      rw [BridgedToolset.appFor, same tool kept, here] at found
      rw [here]
      exact congrArg some found

/-! The whole build -/

theorem slugs_has (toolset : BridgedToolset) (name : String) :
    toolset.slugs.has name = toolset.has name := by
  have entries : ∀ entries : List (Sigma fun _ : String => BridgedTool),
      (List.lookup name (entries.map fun entry => (entry.1, entry.2.server.appSlug))).isSome =
        (entries.dlookup name).isSome := by
    intro entries
    induction entries with
    | nil => rfl
    | cons entry entries ih =>
      obtain ⟨key, tool⟩ := entry
      by_cases here : name = key
      · subst here
        simp
      · have skip : (name == key) = false := beq_eq_false_iff_ne.mpr here
        have rest : List.dlookup name (⟨key, tool⟩ :: entries) = List.dlookup name entries :=
          List.dlookup_cons_ne entries (⟨key, tool⟩ : Sigma fun _ : String => BridgedTool) here
        rw [rest, List.map_cons, List.lookup_cons, skip]
        exact ih
  exact entries _

theorem localToolNames_unmarked : ∀ name ∈ localToolNames, ¬ ['_', '_'] <:+: name.toList := by
  decide +kernel

theorem exposes_empty : Exposes [] ⟨∅, [], []⟩ :=
  ⟨.nil, List.nodup_nil, .refl _, fun app => by simp, List.nodup_nil⟩

theorem Exposes.unshadowed {toolset : BridgedToolset}
    {items : List (RemoteMcpServer × ToolSpec)} (exposes : Exposes items toolset)
    (short : ∀ item ∈ items, item.1.appSlug.length ≤ 50) :
    ∀ name ∈ localToolNames, toolset.has name = false := by
  intro name isLocal
  rw [Bool.eq_false_iff, Ne, exposes.has_iff]
  intro listed
  obtain ⟨tool, member, rfl⟩ := List.mem_map.mp listed
  obtain ⟨item, inItems, made⟩ := exposes.made_of member
  exact localToolNames_unmarked _ isLocal (made.named.marked (short item inItems))

/-- What is dealt out of the numbered listings, up to the ceiling. -/
def dealt (listings : List Listing) : List ((Nat × RemoteMcpServer) × Nat × ToolSpec) :=
  (RoundRobin.deal (RoundRobin.total listings) (numbered listings)).take maxCandidateTools

theorem numbered_total (listings : List Listing) :
    RoundRobin.total (numbered listings) = RoundRobin.total listings := by
  rw [← RoundRobin.total_map Prod.snd Prod.snd, numbered_values]

theorem mem_dealt {listings : List Listing} {item : (Nat × RemoteMcpServer) × Nat × ToolSpec}
    (member : item ∈ dealt listings) :
    ∃ tools, listings[item.1.1]? = some (item.1.2, tools) ∧ tools[item.2.1]? = some item.2.2 := by
  have perm := RoundRobin.deal_perm (Nat.le_of_eq (numbered_total listings))
  exact mem_drained_numbered (perm.mem_iff.mp (List.mem_of_mem_take member))

theorem dealt_values {rounds : Nat} {listings : List Listing}
    (enough : RoundRobin.total listings ≤ rounds) :
    (RoundRobin.deal rounds (listings.filter fun listing => !listing.2.isEmpty)).take
      maxCandidateTools = (dealt listings).map (Prod.map Prod.snd Prod.snd) := by
  rw [RoundRobin.deal_filter, RoundRobin.deal_stable enough, dealt, List.map_take,
    ← RoundRobin.deal_map, numbered_values]

theorem dealt_fair (listings : List Listing) {i j : Nat} {server other : RemoteMcpServer}
    {tools others : List ToolSpec} (lesser : listings[i]? = some (server, tools))
    (greater : listings[j]? = some (other, others))
    (gap : contribution ((dealt listings).map position) i + 1 <
      contribution ((dealt listings).map position) j) :
    contribution ((dealt listings).map position) i = tools.length := by
  have indexed : ∀ k, contribution ((dealt listings).map position) k = RoundRobin.share k
      ((RoundRobin.deal (RoundRobin.total listings)
        ((numbered listings).map (Prod.map Prod.fst (List.map id)))).take maxCandidateTools) := by
    intro k
    rw [RoundRobin.deal_map, ← List.map_take, contribution, RoundRobin.share, List.countP_map,
      List.countP_map]
    rfl
  have keys : (((numbered listings).map (Prod.map Prod.fst (List.map id))).map Prod.fst).Nodup := by
    simp only [numbered, List.map_map]
    rw [show listings.zipIdx.map (Prod.fst ∘ Prod.map Prod.fst (List.map id) ∘
        fun entry => ((entry.2, entry.1.1), entry.1.2.zipIdx.map Prod.swap)) =
      listings.zipIdx.map Prod.snd from rfl, List.zipIdx_map_snd]
    exact List.nodup_range'
  have queue : ∀ {k : Nat} {server : RemoteMcpServer} {tools : List ToolSpec},
      listings[k]? = some (server, tools) → (k, (tools.zipIdx.map Prod.swap).map id) ∈
        (numbered listings).map (Prod.map Prod.fst (List.map id)) := by
    intro k server tools listed
    exact List.mem_map.mpr ⟨((k, server), tools.zipIdx.map Prod.swap),
      List.mem_map.mpr ⟨((server, tools), k), List.mem_zipIdx_iff_getElem?.mpr listed, rfl⟩, rfl⟩
  rw [indexed, indexed] at gap
  rw [indexed, RoundRobin.deal_fair keys _ _ (queue lesser) (queue greater) gap]
  simp

theorem Exposes.bridges {listings : List Listing} {toolset : BridgedToolset}
    (exposes : Exposes ((dealt listings).map (Prod.map Prod.snd Prod.snd)) toolset) :
    Bridges listings toolset ((dealt listings).map position) where
  count := by
    rw [exposes.length, List.length_map, dealt, List.length_take,
      RoundRobin.deal_length (Nat.le_of_eq (numbered_total listings)), numbered_total]
    rfl
  distinct := exposes.distinct
  wellNamed := by
    intro tool member
    obtain ⟨item, _, made⟩ := exposes.made_of member
    exact ⟨made.named.short, List.all_eq_true.mpr made.named.clean⟩
  routed := by
    have made := List.forall₂_map_left_iff.mp exposes.made
    have both := (List.forall₂_and_left _ _).mpr ⟨fun item => mem_dealt, made⟩
    refine List.forall₂_map_left_iff.mpr (both.imp fun item tool found => ?_)
    obtain ⟨⟨tools, listed, inTools⟩, made⟩ := found
    exact ⟨_, tools, _, listed, inTools, made.routed, made.description, made.parameters⟩
  once := by
    have perm := (RoundRobin.deal_perm (Nat.le_of_eq (numbered_total listings))).map position
    rw [dealt, List.map_take]
    exact (perm.nodup_iff.mpr (positions_nodup listings)).sublist (List.take_sublist _ _)
  fair := fun i j server tools other others lesser greater => dealt_fair listings lesser greater
  unshadowed := by
    intro short name isLocal
    have absent : toolset.has name = false := by
      refine exposes.unshadowed (fun item member => ?_) name isLocal
      obtain ⟨numberedItem, source, rfl⟩ := List.mem_map.mp member
      obtain ⟨tools, listed, _⟩ := mem_dealt source
      exact short _ (List.mem_of_getElem? listed)
    refine ⟨absent, fun confirmVia world pending spaces call same => ?_⟩
    have unbridged : isBridged (some toolset.slugs) call.name = false := by
      rw [same]
      exact (slugs_has toolset name).trans absent
    rw [runTool, unbridged]
    rfl

/-- With enough fuel, every list of servers ends in a toolset of its tools, and narrowing it keeps
what it says in agreement. -/
theorem buildToolset_bridges (listings : List Listing) : ∃ toolset picks,
    (∃ enough, ∀ fuel, enough ≤ fuel → buildToolset fuel listings = some toolset) ∧
      Bridges listings toolset picks ∧ Agrees toolset ∧
      ∀ keep, keep.Sublist toolset.tools → ∀ limit,
        (toolset.narrowTo keep limit).tools = keep.take limit ∧
          Agrees (toolset.narrowTo keep limit) ∧
          ∀ tool ∈ keep.take limit, (toolset.narrowTo keep limit).byExposedName.lookup tool.name =
            toolset.byExposedName.lookup tool.name := by
  let enough := RoundRobin.total listings + maxCandidateTools + 2
  have filtered : RoundRobin.total (listings.filter fun listing => !listing.2.isEmpty) < enough := by
    rw [RoundRobin.total_filter]
    simp only [enough]
    omega
  obtain ⟨toolset, run, exposes⟩ := turns_exposes (Nat.add_le_add_right (Nat.le_add_left _ _) 2) enough
    (listings.filter fun listing => !listing.2.isEmpty) filtered exposes_empty
  rw [List.nil_append, List.length_nil, Nat.sub_zero,
    dealt_values (by simp only [enough]; omega)] at exposes
  exact ⟨toolset, _, ⟨enough, fun fuel more => turns_mono more more run⟩, exposes.bridges,
    exposes.agrees, fun keep known limit => narrowTo_agrees exposes.agrees known limit⟩

end Gomer.Ai.McpBridge
