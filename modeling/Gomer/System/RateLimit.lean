import Gomer.Lib.Http
import Gomer.Lib.Relational
import Gomer.Lib.Trace
import Mathlib.Logic.Function.Basic

/-! `RateLimitGuard`: the requests of one bucket, on any number of instances. Each sends INCR, and
EXPIRE where it was the first; either command may fail, also after Redis has carried it out. -/
namespace Gomer.RateLimit

open Trace
open Relational (Completion)

structure RateLimitOptions where
  limit : Nat
  windowSeconds : Nat

/-- The length of a window in ms. -/
def RateLimitOptions.window (options : RateLimitOptions) : Nat := 1000 * options.windowSeconds

/-- The bucket's key: its value and the time it expires at. `opener` is the request whose INCR made
the key; it names the window. -/
structure Counter where
  count : Nat
  deadline : Option Nat
  opener : Nat

inductive Answer where
  | counted (window count : Nat)
  | failOpen
  | crashed

/-- A request before its INCR, between the two commands, and when it is over. -/
inductive Phase where
  | waiting
  | arming
  | ended (time : Nat) (answer : Answer)

structure State where
  now : Nat
  key : Option Counter
  phases : Nat → Phase

def start : State := ⟨0, none, fun _ => .waiting⟩

inductive Action where
  | tick (ms : Nat)
  | incr (request : Nat) (completion : Completion)
  | expire (request : Nat) (completion : Completion)
  | crash (request : Nat)

/-- A key that has expired is not there any more. -/
def State.live (s : State) : Option Counter :=
  s.key.filter fun key => key.deadline.all fun deadline => decide (s.now < deadline)

/-- INCR: a key that is not there is made, without an expiry. -/
def State.incremented (s : State) (request : Nat) : Counter :=
  match s.live with
  | some key => { key with count := key.count + 1 }
  | none => ⟨1, none, request⟩

/-- EXPIRE: a key that is not there stays away. -/
def State.armed (s : State) (window : Nat) : Option Counter :=
  s.live.map fun key => { key with deadline := some (s.now + window) }

def State.put (s : State) (request : Nat) (phase : Phase) : State :=
  { s with phases := Function.update s.phases request phase }

@[simp] theorem State.put_phases (s : State) (request other : Nat) (phase : Phase) :
    (s.put request phase).phases other = if other = request then phase else s.phases other :=
  Function.update_apply s.phases request phase other

def State.ended (s : State) (request : Nat) (answer : Answer) : State :=
  s.put request (.ended s.now answer)

def tooManyRequests : HttpException :=
  ⟨429, "Too many requests — wait a moment and try again.", []⟩

/-- What `canActivate` returns or throws; a request whose process is gone has no answer. -/
def Answer.result (options : RateLimitOptions) : Answer → Option (Except HttpException Bool)
  | .counted _ count =>
    some (if options.limit < count then .error tooManyRequests else .ok true)
  | .failOpen => some (.ok true)
  | .crashed => none

def step (options : RateLimitOptions) (s : State) : Action → Option State
  | .tick ms => some { s with now := s.now + ms }
  | .incr request completion =>
    match s.phases request with
    | .waiting =>
      match completion with
      | .executed =>
        let key := s.incremented request
        if key.count = 1 then some ({ s with key := some key }.put request .arming)
        else some ({ s with key := some key }.ended request (.counted key.opener key.count))
      | .refused => some (s.ended request .failOpen)
      | .unanswered =>
        some ({ s with key := some (s.incremented request) }.ended request .failOpen)
    | _ => none
  | .expire request completion =>
    match s.phases request with
    | .arming =>
      match completion with
      | .executed =>
        some ({ s with key := s.armed options.window }.ended request (.counted request 1))
      | .refused => some (s.ended request .failOpen)
      | .unanswered => some ({ s with key := s.armed options.window }.ended request .failOpen)
    | _ => none
  | .crash request =>
    match s.phases request with
    | .arming => some (s.ended request .crashed)
    | _ => none

abbrev Step (options : RateLimitOptions) (s : State) (a : Action) (t : State) : Prop :=
  step options s a = some t

/-! The claim and the condition -/

/-- Redis has counted the request in this window, and it was let through. -/
def Admitted (options : RateLimitOptions) (s : State) (window request : Nat) : Prop :=
  ∃ time count, s.phases request = .ended time (.counted window count) ∧ count ≤ options.limit

/-- No window has let more requests through than the limit. -/
def AtMost (options : RateLimitOptions) (s : State) : Prop :=
  ∀ window (requests : List Nat), requests.Nodup →
    (∀ request ∈ requests, Admitted options s window request) → requests.length ≤ options.limit

/-- Whatever comes, the window that is open refuses no request from `window` ms after the one that
opened it. -/
def Releases (options : RateLimitOptions) (s : State) : Prop :=
  ∀ key time answer, s.live = some key → s.phases key.opener = .ended time answer →
    ∀ steps t, Run (Step options) s steps t → ∀ later, t.live = some later →
      later.opener = key.opener → options.limit ≤ later.count → t.now < time + options.window

structure Sound (options : RateLimitOptions) (s : State) : Prop where
  atMost : AtMost options s
  releases : Releases options s

/-- The step leaves no window behind whose expiry nobody will set. -/
def Arms (s : State) : Action → Prop
  | .incr _ .unanswered => s.live.isSome = true
  | .expire _ .refused => False
  | .crash _ => False
  | _ => True

/-! What a step does -/

section
variable {options : RateLimitOptions} {s t : State} {a : Action}

theorem live_eq_some_iff {key : Counter} : s.live = some key ↔
    s.key = some key ∧ ∀ deadline, key.deadline = some deadline → s.now < deadline := by
  rw [State.live, Option.filter_eq_some_iff, Option.all_eq_true]
  simp

/-- What Redis has counted of a request: its window and its number there. -/
def Phase.counted (request : Nat) : Phase → Option (Nat × Nat)
  | .arming => some (request, 1)
  | .ended _ (.counted window count) => some (window, count)
  | _ => none

structure Inv (options : RateLimitOptions) (s : State) : Prop where
  positive : ∀ key, s.key = some key → 1 ≤ key.count
  opened : ∀ key, s.key = some key → s.phases key.opener ≠ .waiting
  arming : ∀ request, s.phases request = .arming →
    ∃ key, s.key = some key ∧ key.opener = request ∧ key.deadline = none
  deadline : ∀ key deadline, s.key = some key → key.deadline = some deadline →
    ∃ time answer, s.phases key.opener = .ended time answer ∧ deadline = time + options.window
  past : ∀ request time answer, s.phases request = .ended time answer → time ≤ s.now
  window : ∀ request window count, (s.phases request).counted request = some (window, count) →
    s.phases window ≠ .waiting ∧ 1 ≤ count
  bounded : ∀ request key count, s.key = some key →
    (s.phases request).counted request = some (key.opener, count) → count ≤ key.count
  distinct : ∀ request other x, (s.phases request).counted request = some x →
    (s.phases other).counted other = some x → request = other
  fresh : ∃ bound, ∀ request, bound ≤ request → s.phases request = .waiting

theorem inv_start : Inv options start where
  positive := nofun
  opened := nofun
  arming := nofun
  deadline := nofun
  past := nofun
  window := nofun
  bounded := nofun
  distinct := nofun
  fresh := ⟨0, fun _ _ => rfl⟩

theorem Inv.tick (inv : Inv options s) (ms : Nat) : Inv options { s with now := s.now + ms } := by
  refine { inv with past := fun request time answer ends => ?_ }
  exact (inv.past request time answer ends).trans (Nat.le_add_right _ _)

/-! What is kept when one request enters a phase -/

theorem fresh_put {request : Nat} {phase : Phase}
    (fresh : ∃ bound, ∀ other, bound ≤ other → s.phases other = .waiting) :
    ∃ bound, ∀ other, bound ≤ other → (s.put request phase).phases other = .waiting := by
  obtain ⟨bound, waiting⟩ := fresh
  refine ⟨max bound (request + 1), fun other far => ?_⟩
  rw [State.put_phases, if_neg (by omega)]
  exact waiting other (by omega)

theorem past_put {request : Nat} {phase : Phase}
    (past : ∀ other time answer, s.phases other = .ended time answer → time ≤ s.now)
    (entered : ∀ time answer, phase = .ended time answer → time ≤ s.now) (other time : Nat)
    (answer : Answer) (ends : (s.put request phase).phases other = .ended time answer) :
    time ≤ s.now := by
  rw [State.put_phases] at ends
  split at ends
  · exact entered time answer ends
  · exact past other time answer ends

/-- A number that nobody has had is one request's alone. -/
theorem distinct_put {request : Nat} {phase : Phase}
    (distinct : ∀ one two x, (s.phases one).counted one = some x →
      (s.phases two).counted two = some x → one = two)
    (unknown : ∀ x, phase.counted request = some x →
      ∀ other, (s.phases other).counted other ≠ some x) (one two : Nat) (x : Nat × Nat) :
    ((s.put request phase).phases one).counted one = some x →
      ((s.put request phase).phases two).counted two = some x → one = two := by
  simp only [State.put_phases]
  split <;> rename_i first <;> split <;> rename_i second
  · exact fun _ _ => first.trans second.symm
  · intro number again
    subst first
    exact absurd again (unknown x number two)
  · intro again number
    subst second
    exact absurd again (unknown x number one)
  · exact distinct one two x

/-- A request is over, without a number that it did not have before. -/
theorem Inv.finish (inv : Inv options s) {request : Nat} {answer : Answer}
    (begun : ∀ time earlier, s.phases request ≠ .ended time earlier)
    (known : ∀ x, (Phase.ended s.now answer).counted request = some x →
      (s.phases request).counted request = some x) : Inv options (s.ended request answer) := by
  have same : ∀ other x, ((s.ended request answer).phases other).counted other = some x →
      (s.phases other).counted other = some x := by
    intro other x
    simp only [State.ended, State.put_phases]
    split
    · rename_i own
      subst own
      exact known x
    · exact fun counted => counted
  have going : ∀ other, s.phases other ≠ .waiting →
      (s.ended request answer).phases other ≠ .waiting := by
    intro other
    simp only [State.ended, State.put_phases]
    split
    · exact fun _ => nofun
    · exact fun going => going
  refine
    { positive := inv.positive
      opened := fun key found => going _ (inv.opened key found)
      arming := fun other => ?_
      deadline := fun key deadline found set => ?_
      past := past_put inv.past ?_
      window := fun other window count counted => ?_
      bounded := fun other key count found counted => inv.bounded other key count found (same _ _ counted)
      distinct := fun one two x first second => inv.distinct one two x (same _ _ first) (same _ _ second)
      fresh := fresh_put inv.fresh }
  · simp only [State.ended, State.put_phases]
    split
    · exact nofun
    · exact inv.arming other
  · obtain ⟨time, earlier, ends, when_⟩ := inv.deadline key deadline found set
    have other : key.opener ≠ request := fun own => begun time earlier (own ▸ ends)
    exact ⟨time, earlier, by rw [State.ended, State.put_phases, if_neg other, ends], when_⟩
  · rintro _ _ ⟨⟩
    exact Nat.le_refl _
  · obtain ⟨began, positive⟩ := inv.window other window count (same _ _ counted)
    exact ⟨going _ began, positive⟩

/-- The window's first request, which is over, has set the expiry. -/
theorem Inv.arm (inv : Inv options s) {key : Counter} {time : Nat} {answer : Answer}
    (found : s.key = some key) (ends : s.phases key.opener = .ended time answer) :
    Inv options { s with key := some { key with deadline := some (time + options.window) } } := by
  refine
    { inv with
      positive := ?_
      opened := ?_
      arming := fun request phase => ?_
      deadline := ?_
      bounded := ?_ }
  · rintro _ ⟨⟩
    exact inv.positive key found
  · rintro _ ⟨⟩
    exact inv.opened key found
  · obtain ⟨other, found', rfl, _⟩ := inv.arming request phase
    cases found.symm.trans found'
    exact absurd (phase.symm.trans ends) nofun
  · rintro _ _ ⟨⟩ ⟨⟩
    exact ⟨time, answer, ends, rfl⟩
  · rintro request _ count ⟨⟩ counted
    exact inv.bounded request key count found counted

/-- A waiting request opens a window. -/
theorem Inv.create (inv : Inv options s) {request : Nat} {phase : Phase}
    (waiting : s.phases request = .waiting) (gone : s.live = none)
    (next : phase = .arming ∨ phase = .ended s.now .failOpen) :
    Inv options ({ s with key := some ⟨1, none, request⟩ }.put request phase) := by
  have counted : ∀ x, phase.counted request = some x → x = (request, 1) := by
    obtain rfl | rfl := next
    · rintro x ⟨⟩
      rfl
    · exact nofun
  have begun : phase ≠ .waiting := by
    obtain rfl | rfl := next <;> nofun
  -- Nobody has been counted in the window of a request that waits.
  have unknown : ∀ other count, (s.phases other).counted other ≠ some (request, count) :=
    fun other count counted => (inv.window other request count counted).1 waiting
  have none_arming : ∀ other, s.phases other ≠ .arming := by
    intro other arming
    obtain ⟨key, found, _, unset⟩ := inv.arming other arming
    have live := live_eq_some_iff.mpr ⟨found, fun deadline set => by rw [unset] at set; cases set⟩
    exact absurd (gone.symm.trans live) nofun
  refine
    { positive := ?_
      opened := ?_
      arming := fun other => ?_
      deadline := ?_
      past := past_put inv.past ?_
      window := fun other window count => ?_
      bounded := ?_
      distinct := distinct_put inv.distinct ?_
      fresh := fresh_put inv.fresh }
  · rintro _ ⟨⟩
    exact Nat.le_refl 1
  · rintro _ ⟨⟩
    rw [State.put_phases, if_pos rfl]
    exact begun
  · simp only [State.put_phases]
    split
    · rename_i own
      exact fun _ => ⟨_, rfl, own.symm, rfl⟩
    · exact fun arming => absurd arming (none_arming other)
  · rintro _ _ ⟨⟩
    nofun
  · obtain rfl | rfl := next
    · nofun
    · rintro _ _ ⟨⟩
      exact Nat.le_refl _
  · simp only [State.put_phases]
    split
    · rename_i own
      subst own
      intro number
      cases counted _ number
      exact ⟨by rwa [if_pos rfl], Nat.le_refl 1⟩
    · intro number
      obtain ⟨going, positive⟩ := inv.window other window count number
      refine ⟨?_, positive⟩
      split
      · exact begun
      · exact going
  · rintro other _ count ⟨⟩
    simp only [State.put_phases]
    split
    · rename_i own
      subst own
      intro number
      cases counted _ number
      exact Nat.le_refl 1
    · exact fun number => absurd number (unknown other count)
  · rintro x number
    cases counted x number
    exact fun other => unknown other 1

/-- A waiting request is counted in the window that is open. -/
theorem Inv.bump (inv : Inv options s) {request : Nat} {key : Counter} {answer : Answer}
    (waiting : s.phases request = .waiting) (found : s.key = some key)
    (next : ∀ x, (Phase.ended s.now answer).counted request = some x →
      x = (key.opener, key.count + 1)) :
    Inv options ({ s with key := some { key with count := key.count + 1 } }.ended request answer) := by
  have opener : key.opener ≠ request := fun own => inv.opened key found (own ▸ waiting)
  have high : ∀ other, (s.phases other).counted other ≠ some (key.opener, key.count + 1) :=
    fun other number => absurd (inv.bounded other key _ found number) (by omega)
  refine
    { positive := ?_
      opened := ?_
      arming := fun other => ?_
      deadline := ?_
      past := past_put inv.past ?_
      window := fun other window count => ?_
      bounded := ?_
      distinct := distinct_put inv.distinct ?_
      fresh := fresh_put inv.fresh }
  · rintro _ ⟨⟩
    exact Nat.le_add_left 1 _
  · rintro _ ⟨⟩
    rw [State.ended, State.put_phases, if_neg opener]
    exact inv.opened key found
  · simp only [State.ended, State.put_phases]
    split
    · nofun
    · intro arming
      obtain ⟨same, found', own, unset⟩ := inv.arming other arming
      cases found.symm.trans found'
      exact ⟨_, rfl, own, unset⟩
  · rintro _ deadline ⟨⟩ set
    obtain ⟨time, earlier, ends, when_⟩ := inv.deadline key deadline found set
    exact ⟨time, earlier, by rw [State.ended, State.put_phases, if_neg opener, ends], when_⟩
  · rintro _ _ ⟨⟩
    exact Nat.le_refl _
  · simp only [State.ended, State.put_phases]
    split
    · intro number
      rename_i own
      subst own
      cases next _ number
      rw [if_neg opener]
      exact ⟨inv.opened key found, Nat.le_add_left 1 _⟩
    · intro number
      obtain ⟨going, positive⟩ := inv.window other window count number
      refine ⟨?_, positive⟩
      split
      · nofun
      · exact going
  · rintro other _ count ⟨⟩
    simp only [State.ended, State.put_phases]
    split
    · intro number
      rename_i own
      subst own
      cases next _ number
      exact Nat.le_refl _
    · exact fun number => Nat.le_succ_of_le (inv.bounded other key count found number)
  · rintro x number
    cases next x number
    exact high

/-- While a request is between its commands, the key it made has no expiry yet. -/
theorem Inv.unarmed (inv : Inv options s) {request : Nat} (arming : s.phases request = .arming) :
    ∃ key, s.live = some key ∧ s.key = some key ∧ key.opener = request ∧ key.deadline = none := by
  obtain ⟨key, found, own, unset⟩ := inv.arming request arming
  refine ⟨key, live_eq_some_iff.mpr ⟨found, fun deadline set => ?_⟩, found, own, unset⟩
  rw [unset] at set
  cases set

theorem incremented_live {key : Counter} (request : Nat) (live : s.live = some key) :
    s.incremented request = { key with count := key.count + 1 } := by
  rw [State.incremented, live]

theorem incremented_gone (request : Nat) (gone : s.live = none) :
    s.incremented request = ⟨1, none, request⟩ := by
  rw [State.incremented, gone]

/-- The ways a step goes. -/
inductive Effect (options : RateLimitOptions) (s : State) : Action → State → Prop
  | tick (ms : Nat) : Effect options s (.tick ms) { s with now := s.now + ms }
  | opens {request : Nat} (waiting : s.phases request = .waiting) (gone : s.live = none) :
      Effect options s (.incr request .executed)
        ({ s with key := some ⟨1, none, request⟩ }.put request .arming)
  | opensUnheard {request : Nat} (waiting : s.phases request = .waiting) (gone : s.live = none) :
      Effect options s (.incr request .unanswered)
        ({ s with key := some ⟨1, none, request⟩ }.ended request .failOpen)
  | counts {request : Nat} {key : Counter} (waiting : s.phases request = .waiting)
      (live : s.live = some key) :
      Effect options s (.incr request .executed)
        ({ s with key := some { key with count := key.count + 1 } }.ended request
          (.counted key.opener (key.count + 1)))
  | countsUnheard {request : Nat} {key : Counter} (waiting : s.phases request = .waiting)
      (live : s.live = some key) :
      Effect options s (.incr request .unanswered)
        ({ s with key := some { key with count := key.count + 1 } }.ended request .failOpen)
  | misses {request : Nat} (waiting : s.phases request = .waiting) :
      Effect options s (.incr request .refused) (s.ended request .failOpen)
  | arms {request : Nat} {key : Counter} {completion : Completion} {answer : Answer}
      (arming : s.phases request = .arming) (live : s.live = some key)
      (own : key.opener = request) (unset : key.deadline = none)
      (carried : completion = .executed ∧ answer = .counted request 1 ∨
        completion = .unanswered ∧ answer = .failOpen) :
      Effect options s (.expire request completion)
        ({ s with key := some { key with deadline := some (s.now + options.window) } }.ended request
          answer)
  | loses {request : Nat} (arming : s.phases request = .arming) :
      Effect options s (.expire request .refused) (s.ended request .failOpen)
  | crashes {request : Nat} (arming : s.phases request = .arming) :
      Effect options s (.crash request) (s.ended request .crashed)

theorem step_effect (inv : Inv options s) (taken : step options s a = some t) :
    Effect options s a t := by
  cases a with
  | tick ms =>
    cases taken
    exact .tick ms
  | incr request completion =>
    simp only [step] at taken
    split at taken
    · rename_i waiting
      cases live : s.live with
      | none =>
        rw [incremented_gone request live] at taken
        cases completion <;> cases taken
        · exact .opens waiting live
        · exact .misses waiting
        · exact .opensUnheard waiting live
      | some key =>
        have later : key.count + 1 ≠ 1 := by
          have := inv.positive key (live_eq_some_iff.mp live).1
          omega
        rw [incremented_live request live] at taken
        simp only [if_neg later] at taken
        cases completion <;> cases taken
        · exact .counts waiting live
        · exact .misses waiting
        · exact .countsUnheard waiting live
    · cases taken
  | expire request completion =>
    simp only [step] at taken
    split at taken
    · rename_i arming
      obtain ⟨key, live, _, own, unset⟩ := inv.unarmed arming
      simp only [State.armed, live, Option.map_some] at taken
      cases completion <;> cases taken
      · exact .arms arming live own unset (.inl ⟨rfl, rfl⟩)
      · exact .loses arming
      · exact .arms arming live own unset (.inr ⟨rfl, rfl⟩)
    · cases taken
  | crash request =>
    simp only [step] at taken
    split at taken
    · rename_i arming
      cases taken
      exact .crashes arming
    · cases taken

theorem begun_of_waiting {request : Nat} (waiting : s.phases request = .waiting) (time : Nat)
    (answer : Answer) : s.phases request ≠ .ended time answer := by
  rw [waiting]
  nofun

theorem begun_of_arming {request : Nat} (arming : s.phases request = .arming) (time : Nat)
    (answer : Answer) : s.phases request ≠ .ended time answer := by
  rw [arming]
  nofun

theorem inv_step (inv : Inv options s) (taken : step options s a = some t) : Inv options t := by
  cases step_effect inv taken with
  | tick ms => exact inv.tick ms
  | opens waiting gone => exact inv.create waiting gone (.inl rfl)
  | opensUnheard waiting gone => exact inv.create waiting gone (.inr rfl)
  | counts waiting live =>
    refine inv.bump waiting (live_eq_some_iff.mp live).1 ?_
    rintro x ⟨⟩
    rfl
  | countsUnheard waiting live => exact inv.bump waiting (live_eq_some_iff.mp live).1 nofun
  | misses waiting => exact inv.finish (begun_of_waiting waiting) nofun
  | @arms request key _ answer arming live own unset carried =>
    have known : ∀ x, (Phase.ended s.now answer).counted request = some x →
        (s.phases request).counted request = some x := by
      obtain ⟨_, rfl⟩ | ⟨_, rfl⟩ := carried
      · intro x number
        rwa [arming]
      · nofun
    have ends := inv.finish (begun_of_arming arming) known
    subst own
    exact ends.arm (live_eq_some_iff.mp live).1 (by rw [State.ended, State.put_phases, if_pos rfl])
  | loses arming => exact inv.finish (begun_of_arming arming) nofun
  | crashes arming => exact inv.finish (begun_of_arming arming) nofun

/-! At most `limit` requests of a window -/

theorem Inv.atMost (inv : Inv options s) : AtMost options s := by
  intro window requests once admitted
  let number (request : Nat) : Nat := (((s.phases request).counted request).map (·.2)).getD 0
  have numbered : ∀ request ∈ requests, ∃ count,
      (s.phases request).counted request = some (window, count) ∧ 1 ≤ count ∧
        count ≤ options.limit ∧ number request = count := by
    intro request member
    obtain ⟨time, count, ends, within⟩ := admitted request member
    have counted : (s.phases request).counted request = some (window, count) := by rw [ends]; rfl
    exact ⟨count, counted, (inv.window request window count counted).2, within, by
      simp only [number, counted, Option.map_some, Option.getD_some]⟩
  have distinct : (requests.map number).Nodup := by
    refine List.Nodup.map_on (fun one first two second same => ?_) once
    obtain ⟨count, counted, _, _, named⟩ := numbered one first
    obtain ⟨count', counted', _, _, named'⟩ := numbered two second
    rw [named, named'] at same
    exact inv.distinct one two _ counted (same ▸ counted')
  have listed : requests.map number ⊆ List.range' 1 options.limit := by
    intro count member
    obtain ⟨request, listed, rfl⟩ := List.mem_map.mp member
    obtain ⟨count, _, positive, within, named⟩ := numbered request listed
    rw [named, List.mem_range'_1]
    omega
  have fits := (List.subperm_of_subset distinct listed).length_le
  rwa [List.length_map, List.length_range'] at fits

/-! How long a window stays -/

theorem Inv.of_run (inv : Inv options s) {steps : List (Transition State Action)}
    (run : Run (Step options) s steps t) : Inv options t :=
  run.invariant inv fun _ _ _ inv taken => inv_step inv taken

/-- The window that is open has an expiry, once the request that opened it is over. -/
def Bounded (s : State) : Prop :=
  ∀ key time answer, s.live = some key → s.phases key.opener = .ended time answer →
    key.deadline.isSome = true

/-- The expiry of a window whose first request is over stays. -/
structure Kept (window time deadline : Nat) (answer : Answer) (s : State) : Prop where
  ends : s.phases window = .ended time answer
  set : ∀ key, s.key = some key → key.opener = window → key.deadline = some deadline

theorem Kept.put {window time deadline request : Nat} {answer : Answer} {phase : Phase}
    (kept : Kept window time deadline answer s)
    (begun : ∀ time answer, s.phases request ≠ .ended time answer) :
    Kept window time deadline answer (s.put request phase) where
  ends := by
    have other : window ≠ request := fun own => begun time answer (own ▸ kept.ends)
    rw [State.put_phases, if_neg other, kept.ends]
  set := kept.set

theorem Kept.step {window time deadline : Nat} {answer : Answer}
    (kept : Kept window time deadline answer s) (inv : Inv options s)
    (taken : step options s a = some t) : Kept window time deadline answer t := by
  cases step_effect inv taken with
  | tick ms => exact ⟨kept.ends, kept.set⟩
  | misses waiting => exact kept.put (begun_of_waiting waiting)
  | loses arming => exact kept.put (begun_of_arming arming)
  | crashes arming => exact kept.put (begun_of_arming arming)
  | opens waiting gone =>
    refine ⟨(kept.put (begun_of_waiting waiting)).ends, ?_⟩
    rintro _ ⟨⟩ rfl
    exact absurd kept.ends (begun_of_waiting waiting _ _)
  | opensUnheard waiting gone =>
    refine ⟨(kept.put (begun_of_waiting waiting)).ends, ?_⟩
    rintro _ ⟨⟩ rfl
    exact absurd kept.ends (begun_of_waiting waiting _ _)
  | @counts _ key waiting live =>
    refine ⟨(kept.put (begun_of_waiting waiting)).ends, ?_⟩
    rintro _ ⟨⟩ own
    exact kept.set key (live_eq_some_iff.mp live).1 own
  | @countsUnheard _ key waiting live =>
    refine ⟨(kept.put (begun_of_waiting waiting)).ends, ?_⟩
    rintro _ ⟨⟩ own
    exact kept.set key (live_eq_some_iff.mp live).1 own
  | arms arming live own unset carried =>
    refine ⟨(kept.put (begun_of_arming arming)).ends, ?_⟩
    rintro _ ⟨⟩ same
    subst own
    exact absurd (same ▸ kept.ends) (begun_of_arming arming _ _)

theorem Kept.of_run {window time deadline : Nat} {answer : Answer}
    (kept : Kept window time deadline answer s) (inv : Inv options s)
    {steps : List (Transition State Action)} (run : Run (Step options) s steps t) :
    Kept window time deadline answer t :=
  (run.invariant (I := fun s => Kept window time deadline answer s ∧ Inv options s) ⟨kept, inv⟩
    fun _ _ _ both taken => ⟨both.1.step both.2 taken, inv_step both.2 taken⟩).1

theorem Bounded.releases (bounded : Bounded s) (inv : Inv options s) : Releases options s := by
  intro key time answer live ends steps t run later there same _
  obtain ⟨deadline, set⟩ := Option.isSome_iff_exists.mp (bounded key time answer live ends)
  have found := (live_eq_some_iff.mp live).1
  obtain ⟨time', answer', ends', rfl⟩ := inv.deadline key deadline found set
  cases ends.symm.trans ends'
  have kept : Kept key.opener time (time + options.window) answer s := by
    refine ⟨ends, fun other found' _ => ?_⟩
    cases found.symm.trans found'
    exact set
  obtain ⟨found', unexpired⟩ := live_eq_some_iff.mp there
  exact unexpired _ ((kept.of_run inv run).set later found' same)

/-- A window without an expiry can be filled. -/
theorem fills (inv : Inv options s) {key : Counter} (found : s.key = some key)
    (unset : key.deadline = none) (n : Nat) : ∃ steps t, Run (Step options) s steps t ∧
      t.now = s.now ∧ ∃ later, t.key = some later ∧ later.opener = key.opener ∧
        later.deadline = none ∧ n ≤ later.count := by
  induction n with
  | zero => exact ⟨[], s, .nil, rfl, key, found, rfl, unset, Nat.zero_le _⟩
  | succ n ih =>
    obtain ⟨steps, t, run, clock, later, found', same, unset', full⟩ := ih
    obtain ⟨bound, waiting⟩ := (inv.of_run run).fresh
    have live : t.live = some later :=
      live_eq_some_iff.mpr ⟨found', fun deadline set => by rw [unset'] at set; cases set⟩
    have taken : step options t (.incr bound .unanswered) =
        some ({ t with key := some { later with count := later.count + 1 } }.ended bound
          .failOpen) := by
      simp only [step, waiting bound (Nat.le_refl _), incremented_live bound live]
    exact ⟨_, _, run.snoc taken, clock, _, rfl, same, unset', Nat.succ_le_succ full⟩

theorem Releases.bounded (releases : Releases options s) (inv : Inv options s) : Bounded s := by
  intro key time answer live ends
  by_contra unset
  have unset : key.deadline = none := Option.not_isSome_iff_eq_none.mp unset
  obtain ⟨found, _⟩ := live_eq_some_iff.mp live
  obtain ⟨steps, t, run, clock, later, found', same, unset', full⟩ :=
    fills inv found unset options.limit
  have taken : step options t (.tick options.window) =
      some { t with now := t.now + options.window } := rfl
  have there : State.live { t with now := t.now + options.window } = some later :=
    live_eq_some_iff.mpr ⟨found', fun deadline set => by rw [unset'] at set; cases set⟩
  have early := releases key time answer live ends _ _ (run.snoc taken) later there same full
  have begun := inv.past key.opener time answer ends
  simp only [clock] at early
  omega

theorem sound_iff_bounded (inv : Inv options s) : Sound options s ↔ Bounded s :=
  ⟨fun sound => sound.releases.bounded inv, fun bounded => ⟨inv.atMost, bounded.releases inv⟩⟩

theorem live_put (request : Nat) (phase : Phase) : (s.put request phase).live = s.live := rfl

/-- A request that is not the first of the window leaves its expiry. -/
theorem Bounded.put (bounded : Bounded s) {request : Nat} {phase : Phase} {key : Counter}
    (live : s.live = some key) (other : key.opener ≠ request) {key' : Counter}
    (opener : key'.opener = key.opener) (deadline : key'.deadline = key.deadline) :
    Bounded ({ s with key := some key' }.put request phase) := by
  intro later time answer there ends
  obtain ⟨found, _⟩ := live_eq_some_iff.mp there
  cases found
  rw [opener, State.put_phases, if_neg other] at ends
  rw [deadline]
  exact bounded key time answer live ends

/-- A first request that is over before it has set the expiry leaves the window without one. -/
theorem not_bounded {request : Nat} {answer : Answer} {key : Counter} (live : s.live = some key)
    (own : key.opener = request) (unset : key.deadline = none) :
    ¬ Bounded (s.ended request answer) := by
  intro bounded
  have set := bounded key s.now answer live (by rw [State.ended, State.put_phases, if_pos own])
  rw [unset] at set
  cases set

/-- A step leaves the open window with an expiry exactly when the step is one that arms. -/
theorem step_bounded_iff (inv : Inv options s) (bounded : Bounded s)
    (taken : step options s a = some t) : Bounded t ↔ Arms s a := by
  have apart : ∀ {request : Nat} {key : Counter}, s.phases request = .waiting →
      s.live = some key → key.opener ≠ request := by
    rintro request key waiting live rfl
    exact inv.opened key (live_eq_some_iff.mp live).1 waiting
  cases step_effect inv taken with
  | tick ms =>
    refine iff_of_true (fun key time answer live ends => ?_) trivial
    obtain ⟨found, unexpired⟩ := live_eq_some_iff.mp live
    refine bounded key time answer (live_eq_some_iff.mpr ⟨found, fun deadline set => ?_⟩) ends
    exact Nat.lt_of_le_of_lt (Nat.le_add_right _ _) (unexpired deadline set)
  | opens waiting gone =>
    refine iff_of_true (fun key time answer live ends => ?_) trivial
    obtain ⟨found, _⟩ := live_eq_some_iff.mp live
    cases found
    rw [State.put_phases, if_pos rfl] at ends
    cases ends
  | opensUnheard waiting gone =>
    refine iff_of_false ?_ (by simp [Arms, gone])
    exact not_bounded (live_eq_some_iff.mpr ⟨rfl, nofun⟩) rfl rfl
  | counts waiting live =>
    exact iff_of_true (bounded.put live (apart waiting live) rfl rfl) trivial
  | countsUnheard waiting live =>
    exact iff_of_true (bounded.put live (apart waiting live) rfl rfl) (by simp [Arms, live])
  | misses waiting =>
    refine iff_of_true (fun key time answer live ends => ?_) trivial
    rw [State.ended, live_put] at live
    rw [State.ended, State.put_phases, if_neg (apart waiting live)] at ends
    exact bounded key time answer live ends
  | arms arming live own unset carried =>
    refine iff_of_true (fun later time answer there ends => ?_) ?_
    · obtain ⟨found, _⟩ := live_eq_some_iff.mp there
      cases found
      rfl
    · obtain ⟨rfl, _⟩ | ⟨rfl, _⟩ := carried <;> trivial
  | loses arming =>
    obtain ⟨key, live, _, own, unset⟩ := inv.unarmed arming
    exact iff_of_false (not_bounded live own unset) fun arms => arms
  | crashes arming =>
    obtain ⟨key, live, _, own, unset⟩ := inv.unarmed arming
    exact iff_of_false (not_bounded live own unset) fun arms => arms

/-- A run is sound in each of its states exactly when each of its steps arms what it opens. -/
theorem fixed_window_iff {steps : List (Transition State Action)}
    (run : Run (Step options) start steps s) :
    (∀ x ∈ steps, Sound options x.post) ↔ ∀ x ∈ steps, Arms x.pre x.label := by
  have invariant : ∀ x ∈ steps, Inv options x.post :=
    run.lawful_of (I := Inv options) (fun x => Inv options x.post) (fun _ => True) inv_start
      (fun _ _ _ inv taken _ => ⟨inv_step inv taken, inv_step inv taken⟩) fun _ _ => trivial
  have bounded := run.states_iff (I := Inv options) Bounded Arms inv_start
    (fun _ _ _ inv taken => inv_step inv taken) nofun
    (fun _ _ _ inv bounded taken => step_bounded_iff inv bounded taken)
  rw [← bounded]
  exact forall₂_congr fun x taken => sound_iff_bounded (invariant x taken)

end

def oneAMinute : RateLimitOptions := ⟨1, 60⟩

def firstCounted : State := { start with key := some ⟨1, none, 0⟩ }.put 0 .arming

/-- Redis has counted the first request and refused its EXPIRE. -/
def lostExpiry : State := firstCounted.ended 0 .failOpen

/-- A day later the bucket still refuses requests. -/
theorem lost_expiry_blocks : ¬ ∀ steps s, Run (Step oneAMinute) start steps s →
    ∀ x ∈ steps, Sound oneAMinute x.post := by
  intro claim
  have counted : step oneAMinute start (.incr 0 .executed) = some firstCounted := rfl
  have refused : step oneAMinute firstCounted (.expire 0 .refused) = some lostExpiry := rfl
  have sound := claim _ _ ((Run.nil.snoc counted).snoc refused)
    ⟨firstCounted, .expire 0 .refused, lostExpiry⟩ (by simp)
  have day : step oneAMinute lostExpiry (.tick 86400000) =
      some { lostExpiry with now := 86400000 } := rfl
  have early := sound.releases ⟨1, none, 0⟩ 0 .failOpen rfl rfl _ _ (Run.nil.snoc day)
    ⟨1, none, 0⟩ rfl rfl (Nat.le_refl 1)
  exact absurd early (by decide)

/-- The window of the first request refuses the second one; the third opens the next window. -/
def twoWindows : List Action :=
  [.incr 0 .executed, .expire 0 .executed, .incr 1 .executed, .tick 60000, .incr 2 .executed,
    .expire 2 .executed]

theorem armed_run_sound : ∃ steps s, Run (Step oneAMinute) start steps s ∧
    s.phases 1 = .ended 0 (.counted 0 2) ∧ s.phases 2 = .ended 60000 (.counted 2 1) ∧
    ∀ x ∈ steps, Sound oneAMinute x.post := by
  have run := @follow_run _ _ (step oneAMinute) start _ twoWindows _ rfl
  refine ⟨_, _, run, rfl, rfl, (fixed_window_iff run).mpr fun x taken => ?_⟩
  simp only [List.mem_cons, List.not_mem_nil, or_false] at taken
  rcases taken with rfl | rfl | rfl | rfl | rfl | rfl
  all_goals trivial

end Gomer.RateLimit
