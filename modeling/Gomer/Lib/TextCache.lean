import Mathlib.Logic.Function.Basic
import Gomer.Lib.Trace

/-! Values cached as texts that expire. A call reads the text of its key, and where that is missing
or no longer fresh it makes the value, and stores it; any number of calls do so in any order, and
each read and each write can fail. -/
namespace TextCache

open Trace

variable {K V W : Type*}

/-- What a call does with what it has read: it answers, or makes the value and keeps what it has
read for the case that this fails. -/
inductive Hit (W : Type*) where
  | serve (answer : W)
  | make (kept : Option W)

/-- A value `V` is answered as a `W`. The stamp of a text is the time at which it was made up. -/
structure Policy (V W : Type*) where
  answer : V → W
  encode : Nat → V → String
  hit : Nat → Option String → Hit W
  ttl : Nat

structure Entry where
  text : String
  expiresAt : Nat

inductive Phase (V W : Type*) where
  | waiting
  | read (found : Option String)
  | missed (kept : Option W)
  | made (value : V)
  | stamped (value : V) (stamp : Nat)
  | ended (answer : Option W)

/-- What has happened, with the time where it matters. -/
inductive Event (V : Type*) where
  | read (call : Nat) (found : Bool) (time : Nat)
  | checked (call time : Nat)
  | made (call : Nat) (value : V)
  | failed (call : Nat)
  | stored (call stamp time : Nat)

structure State (K V W : Type*) where
  now : Nat
  store : K → Option Entry
  phase : Nat → Phase V W
  log : List (Event V)

def start (now : Nat) : State K V W := ⟨now, fun _ => none, fun _ => .waiting, []⟩

inductive Act (K V : Type*) where
  | wait (clock : Nat)
  | evict (key : K)
  | read (call : Nat) (reached : Bool)
  | check (call : Nat)
  | make (call : Nat) (value : Option V)
  | stamp (call : Nat)
  | store (call : Nat) (reached : Bool)

/-- The call that makes a step, if one does. -/
def Act.call? : Act K V → Option Nat
  | .wait _ | .evict _ => none
  | .read call _ | .check call | .make call _ | .stamp call | .store call _ => some call

def State.live (s : State K V W) (key : K) : Option String :=
  (s.store key).bind fun entry => if s.now < entry.expiresAt then some entry.text else none

def State.enter (s : State K V W) (call : Nat) (phase : Phase V W) (events : List (Event V)) :
    State K V W :=
  { s with phase := Function.update s.phase call phase, log := events ++ s.log }

section
variable [DecidableEq K] (policy : Policy V W) (latest : Nat) (key : Nat → K)

/-- The clock stands still at `latest`. -/
def step (s : State K V W) : Act K V → Option (State K V W)
  | .wait clock => if s.now ≤ clock ∧ clock ≤ latest then some { s with now := clock } else none
  | .evict key => some { s with store := Function.update s.store key none }
  | .read call reached =>
    match s.phase call with
    | .waiting =>
      let found := if reached then s.live (key call) else none
      some (s.enter call (.read found) [.read call found.isSome s.now])
    | _ => none
  | .check call =>
    match s.phase call with
    | .read found =>
      match policy.hit s.now found with
      | .serve answer => some (s.enter call (.ended (some answer)) [.checked call s.now])
      | .make kept => some (s.enter call (.missed kept) [.checked call s.now])
    | _ => none
  | .make call value =>
    match s.phase call, value with
    | .missed _, some value => some (s.enter call (.made value) [.made call value])
    | .missed kept, none => some (s.enter call (.ended kept) [.failed call])
    | _, _ => none
  | .stamp call =>
    match s.phase call with
    | .made value => some (s.enter call (.stamped value s.now) [])
    | _ => none
  | .store call reached =>
    match s.phase call with
    | .stamped value stamp =>
      let ended := s.enter call (.ended (some (policy.answer value)))
      if reached then
        some { ended [.stored call stamp s.now] with
          store := Function.update s.store (key call)
            (some ⟨policy.encode stamp value, s.now + policy.ttl⟩) }
      else some (ended [])
    | _ => none

abbrev Step (s : State K V W) (a : Act K V) (t : State K V W) : Prop :=
  step policy latest key s a = some t

end

/-! What an answer is -/

/-- A text is read back as `back`, and is `fresh` up to some age. -/
structure Policy.Lawful (policy : Policy V W) (latest : Nat) (back : V → W) (fresh : Nat → Bool) :
    Prop where
  missing : ∀ now, policy.hit now none = .make none
  hit : ∀ now stamp value, stamp ≤ now → now ≤ latest →
    policy.hit now (some (policy.encode stamp value)) =
      if fresh (now - stamp) then .serve (back value) else .make (some (back value))

/-- The text that a call found is one of a value that another call for the same key made, and was
younger than `ttl` when it was read. -/
structure Found (policy : Policy V W) (key : Nat → K) (log : List (Event V)) (call : Nat)
    (value : V) (stamp time : Nat) : Prop where
  read : .read call true time ∈ log
  source : ∃ source stored, key source = key call ∧ .made source value ∈ log ∧
    .stored source stamp stored ∈ log ∧ stamp ≤ stored ∧ stored ≤ time ∧
    time < stored + policy.ttl

/-- Where an answer is from. -/
inductive Origin (policy : Policy V W) (key : Nat → K) (back : V → W) (fresh : Nat → Bool)
    (log : List (Event V)) (call : Nat) : Option W → Prop where
  | made {value : V} (made : .made call value ∈ log) :
      Origin policy key back fresh log call (some (policy.answer value))
  | cached {value : V} {stamp time checked : Nat}
      (found : Found policy key log call value stamp time) (after : time ≤ checked)
      (check : .checked call checked ∈ log) (age : fresh (checked - stamp) = true) :
      Origin policy key back fresh log call (some (back value))
  | stale {value : V} {stamp time checked : Nat}
      (found : Found policy key log call value stamp time) (after : time ≤ checked)
      (check : .checked call checked ∈ log) (age : fresh (checked - stamp) = false)
      (failed : .failed call ∈ log) :
      Origin policy key back fresh log call (some (back value))
  | nothing {time : Nat} (read : .read call false time ∈ log) (failed : .failed call ∈ log) :
      Origin policy key back fresh log call none

/-! What every step keeps -/

/-- Where the text under a key is from. -/
def Entered (policy : Policy V W) (key : Nat → K) (s : State K V W) (k : K) (entry : Entry) : Prop :=
  ∃ source value stamp stored, key source = k ∧ .made source value ∈ s.log ∧
    .stored source stamp stored ∈ s.log ∧ stamp ≤ stored ∧ stored ≤ s.now ∧
    entry = ⟨policy.encode stamp value, stored + policy.ttl⟩

/-- What a call knows between its steps. -/
def Knows (policy : Policy V W) (key : Nat → K) (back : V → W) (fresh : Nat → Bool) (now : Nat)
    (log : List (Event V)) (call : Nat) : Phase V W → Prop
  | .waiting => True
  | .read none => ∃ time, .read call false time ∈ log
  | .read (some text) => ∃ value stamp time, Found policy key log call value stamp time ∧
      time ≤ now ∧ text = policy.encode stamp value
  | .missed none => ∃ time, .read call false time ∈ log
  | .missed (some kept) => ∃ value stamp time checked, Found policy key log call value stamp time ∧
      time ≤ checked ∧ .checked call checked ∈ log ∧ fresh (checked - stamp) = false ∧
      kept = back value
  | .made value => .made call value ∈ log
  | .stamped value stamp => .made call value ∈ log ∧ stamp ≤ now
  | .ended answer => Origin policy key back fresh log call answer

structure Inv (policy : Policy V W) (latest : Nat) (key : Nat → K) (back : V → W)
    (fresh : Nat → Bool) (s : State K V W) : Prop where
  now : s.now ≤ latest
  entered : ∀ k entry, s.store k = some entry → Entered policy key s k entry
  knows : ∀ call, Knows policy key back fresh s.now s.log call (s.phase call)

section
variable {policy : Policy V W} {latest : Nat} {key : Nat → K} {back : V → W} {fresh : Nat → Bool}
  {s t : State K V W} {log more : List (Event V)} {call : Nat}

theorem Found.mono {value : V} {stamp time : Nat} (found : Found policy key log call value stamp time)
    (kept : log ⊆ more) : Found policy key more call value stamp time := by
  obtain ⟨source, stored, same, made, kept_, order⟩ := found.source
  exact ⟨kept found.read, source, stored, same, kept made, kept kept_, order⟩

theorem Origin.mono {answer : Option W} (origin : Origin policy key back fresh log call answer)
    (kept : log ⊆ more) : Origin policy key back fresh more call answer := by
  cases origin with
  | made made => exact .made (kept made)
  | cached found after check age => exact .cached (found.mono kept) after (kept check) age
  | stale found after check age failed =>
    exact .stale (found.mono kept) after (kept check) age (kept failed)
  | nothing read failed => exact .nothing (kept read) (kept failed)

theorem Knows.mono {now later : Nat} {phase : Phase V W}
    (knows : Knows policy key back fresh now log call phase) (kept : log ⊆ more) (le : now ≤ later) :
    Knows policy key back fresh later more call phase := by
  cases phase with
  | waiting => trivial
  | read found =>
    cases found with
    | none => exact knows.imp fun time read => kept read
    | some text =>
      obtain ⟨value, stamp, time, found, before, same⟩ := knows
      exact ⟨value, stamp, time, found.mono kept, Nat.le_trans before le, same⟩
  | missed answer =>
    cases answer with
    | none => exact knows.imp fun time read => kept read
    | some answer =>
      obtain ⟨value, stamp, time, checked, found, after, check, age, same⟩ := knows
      exact ⟨value, stamp, time, checked, found.mono kept, after, kept check, age, same⟩
  | made value => exact kept knows
  | stamped value stamp => exact ⟨kept knows.1, Nat.le_trans knows.2 le⟩
  | ended answer => exact Origin.mono knows kept

theorem Entered.mono {k : K} {entry : Entry} (entered : Entered policy key s k entry)
    (kept : s.log ⊆ t.log) (le : s.now ≤ t.now) : Entered policy key t k entry := by
  obtain ⟨source, value, stamp, stored, same, made, put, first, second, shape⟩ := entered
  exact ⟨source, value, stamp, stored, same, kept made, kept put, first, Nat.le_trans second le, shape⟩

theorem inv_start {now : Nat} (le : now ≤ latest) :
    Inv policy latest key back fresh (start now) where
  now := le
  entered _ _ absent := by cases absent
  knows _ := trivial

theorem Inv.enter (inv : Inv policy latest key back fresh s) {phase : Phase V W}
    {events : List (Event V)}
    (own : Knows policy key back fresh s.now (events ++ s.log) call phase) :
    Inv policy latest key back fresh (s.enter call phase events) where
  now := inv.now
  entered k entry held :=
    (inv.entered k entry held).mono (List.subset_append_right _ _) (Nat.le_refl _)
  knows other := by
    by_cases same : other = call
    · subst same
      simpa [State.enter] using own
    · simpa [State.enter, Function.update_of_ne same] using
        (inv.knows other).mono (List.subset_append_right events s.log) (Nat.le_refl _)

/-- The text that is read is one that a call stored. -/
theorem Inv.live (inv : Inv policy latest key back fresh s) {text : String}
    (found : s.live (key call) = some text) : ∃ value stamp,
    Found policy key (.read call true s.now :: s.log) call value stamp s.now ∧
      text = policy.encode stamp value := by
  obtain ⟨entry, held, young⟩ := Option.bind_eq_some_iff.mp found
  obtain ⟨source, value, stamp, stored, same, made, put, first, second, rfl⟩ :=
    inv.entered _ _ held
  obtain ⟨below, written⟩ := Option.ite_none_right_eq_some.mp young
  exact ⟨value, stamp, ⟨List.mem_cons_self, source, stored, same, List.mem_cons_of_mem _ made,
    List.mem_cons_of_mem _ put, first, second, below⟩, (Option.some.inj written).symm⟩

theorem Inv.hit (inv : Inv policy latest key back fresh s)
    (lawful : policy.Lawful latest back fresh) {found : Option String}
    (before : s.phase call = .read found) :
    (∃ answer, policy.hit s.now found = .serve answer ∧
      Origin policy key back fresh (.checked call s.now :: s.log) call (some answer)) ∨
    ∃ kept, policy.hit s.now found = .make kept ∧
      Knows policy key back fresh s.now (.checked call s.now :: s.log) call (.missed kept) := by
  have knows := inv.knows call
  rw [before] at knows
  have grown : s.log ⊆ .checked call s.now :: s.log := List.subset_cons_self _ _
  cases found with
  | none =>
    obtain ⟨time, read⟩ := knows
    exact .inr ⟨none, lawful.missing s.now, time, grown read⟩
  | some text =>
    obtain ⟨value, stamp, time, found, early, rfl⟩ := knows
    have order : stamp ≤ s.now := by
      obtain ⟨source, stored, -, -, -, first, second, -⟩ := found.source
      omega
    rw [lawful.hit s.now stamp value order inv.now]
    cases age : fresh (s.now - stamp) with
    | true =>
      exact .inl ⟨back value, rfl, .cached (found.mono grown) early List.mem_cons_self age⟩
    | false =>
      exact .inr ⟨some (back value), rfl, value, stamp, time, s.now, found.mono grown, early,
        List.mem_cons_self, age, rfl⟩

variable [DecidableEq K]

theorem Inv.step {a : Act K V} (inv : Inv policy latest key back fresh s)
    (lawful : policy.Lawful latest back fresh) (taken : Step policy latest key s a t) :
    Inv policy latest key back fresh t := by
  cases a with
  | wait clock =>
    obtain ⟨⟨later, last⟩, same⟩ := Option.ite_none_right_eq_some.mp taken
    cases same
    exact ⟨last, fun k entry held => (inv.entered k entry held).mono (List.Subset.refl _) later,
      fun call => (inv.knows call).mono (List.Subset.refl _) later⟩
  | evict gone =>
    cases taken
    refine ⟨inv.now, fun k entry held => ?_, inv.knows⟩
    by_cases same : k = gone
    · subst same
      simp at held
    · exact inv.entered k entry (by simpa [Function.update_of_ne same] using held)
  | read call reached =>
    simp only [Step, TextCache.step] at taken
    split at taken
    · cases taken
      refine inv.enter ?_
      cases reached with
      | false => exact ⟨s.now, List.mem_cons_self⟩
      | true =>
        cases found : s.live (key call) with
        | none => simp [Knows]
        | some text =>
          obtain ⟨value, stamp, source, same⟩ := inv.live found
          simpa [Knows, found] using ⟨value, stamp, s.now, source, Nat.le_refl _, same⟩
    · cases taken
  | check call =>
    simp only [Step, TextCache.step] at taken
    split at taken
    · rename_i found before
      rcases inv.hit lawful before with ⟨answer, hit, origin⟩ | ⟨kept, hit, knows⟩
      · rw [hit] at taken
        cases taken
        exact inv.enter origin
      · rw [hit] at taken
        cases taken
        exact inv.enter knows
    · cases taken
  | make call value =>
    simp only [Step, TextCache.step] at taken
    split at taken
    · cases taken
      exact inv.enter List.mem_cons_self
    · rename_i kept before
      cases taken
      refine inv.enter ?_
      have knows := inv.knows call
      rw [before] at knows
      have grown : s.log ⊆ .failed call :: s.log := List.subset_cons_self _ _
      cases kept with
      | none =>
        obtain ⟨time, read⟩ := knows
        exact .nothing (grown read) List.mem_cons_self
      | some kept =>
        obtain ⟨value, stamp, time, checked, found, after, check, age, rfl⟩ := knows
        exact .stale (found.mono grown) after (grown check) age List.mem_cons_self
    · cases taken
  | stamp call =>
    simp only [Step, TextCache.step] at taken
    split at taken
    · rename_i value before
      cases taken
      have knows := inv.knows call
      rw [before] at knows
      exact inv.enter ⟨knows, Nat.le_refl _⟩
    · cases taken
  | store call reached =>
    simp only [Step, TextCache.step] at taken
    split at taken
    · rename_i value stamp before
      have knows := inv.knows call
      rw [before] at knows
      obtain ⟨made, early⟩ := knows
      cases reached with
      | false =>
        cases taken
        exact inv.enter (.made made)
      | true =>
        cases taken
        have ended : Inv policy latest key back fresh
            (s.enter call (.ended (some (policy.answer value))) [.stored call stamp s.now]) :=
          inv.enter (.made (List.mem_cons_of_mem _ made))
        refine ⟨ended.now, fun k entry held => ?_, ended.knows⟩
        by_cases same : k = key call
        · subst same
          simp only [Function.update_self, Option.some.injEq] at held
          exact ⟨call, value, stamp, s.now, rfl, List.mem_cons_of_mem _ made, List.mem_cons_self,
            early, Nat.le_refl _, held.symm⟩
        · exact ended.entered k entry (by simpa [State.enter, Function.update_of_ne same] using held)
    · cases taken

/-- Whatever the other calls do, an answer is the call's own, or that of a call for the same key,
fresh or, where the call itself failed, stale; and there is none only where it failed and read
nothing. -/
theorem answers {now : Nat} (lawful : policy.Lawful latest back fresh) (le : now ≤ latest)
    (reached : Reachable (Step policy latest key) (start now) s) {answer : Option W}
    (ended : s.phase call = .ended answer) :
    Origin policy key back fresh s.log call answer := by
  obtain ⟨steps, run⟩ := reached
  have inv : Inv policy latest key back fresh s :=
    run.invariant (inv_start le) fun s a t inv taken => inv.step lawful taken
  have knows := inv.knows call
  rwa [ended] at knows

end

end TextCache
