import Mathlib.Data.List.Basic
import Mathlib.Logic.Function.Basic
import Mathlib.Order.Lattice
import Gomer.Lib.Trace

/-! Jobs in the rows of one table, polled by any number of servers. A server loads the rows that are
due, and executes one after the other; a row is advanced to its next slot when its execution has
ended, and until then any other server finds it due. -/
namespace Polling

open Trace

/-- `advance` is the row that is saved after an execution, at the time of the save and with the
outcome; it can throw. `aborts` says whether a failed save ends the tick. -/
structure Job (R O T : Type*) where
  slot : R → Option T
  due : T → R → Bool
  advance : T → O → R → Option R
  aborts : Bool

structure Execution (I K T : Type*) where
  server : I
  key : K
  slot : Option T
  deriving DecidableEq, Repr

inductive Phase (K R : Type*) where
  | idle
  | ticking (queue : List (K × R))
  | executed (key : K) (row : R) (queue : List (K × R))

/-- `executions` has the latest first; `unsaved` are those that no save has followed. -/
structure State (I K R T : Type*) where
  clock : T
  row : K → R
  phase : I → Phase K R
  executions : List (Execution I K T)
  unsaved : List (Execution I K T)

variable {I K R O T : Type*}

def start (clock : T) (row : K → R) : State I K R T := ⟨clock, row, fun _ => .idle, [], []⟩

inductive Act (I K O T : Type*) where
  | wait (clock : T)
  | query (server : I) (keys : List K)
  | execute (server : I)
  /-- The save can fail, with `stored` false. -/
  | save (server : I) (outcome : O) (stored : Bool)
  | finish (server : I)

section
variable [DecidableEq I] [DecidableEq K] [LinearOrder T]

def State.enter (s : State I K R T) (server : I) (phase : Phase K R) : State I K R T :=
  { s with phase := Function.update s.phase server phase }

def execute (job : Job R O T) (s : State I K R T) (server : I) (key : K) (row : R)
    (queue : List (K × R)) : State I K R T :=
  { s.enter server (.executed key row queue) with
    executions := ⟨server, key, job.slot row⟩ :: s.executions
    unsaved := ⟨server, key, job.slot row⟩ :: s.unsaved }

def save (job : Job R O T) (s : State I K R T) (server : I) (outcome : O) (stored : Bool) (key : K)
    (row : R) (queue : List (K × R)) : State I K R T :=
  match if stored then job.advance s.clock outcome row else none with
  | some next =>
    { s.enter server (.ticking queue) with
      row := Function.update s.row key next
      unsaved := s.unsaved.erase ⟨server, key, job.slot row⟩ }
  | none => s.enter server (if job.aborts then .idle else .ticking queue)

variable (job : Job R O T) (keys : List K)

def step (s : State I K R T) : Act I K O T → Option (State I K R T)
  | .wait clock => if s.clock ≤ clock then some { s with clock := clock } else none
  | .query server found =>
    match s.phase server with
    | .idle =>
      if found.Perm (keys.filter fun key => job.due s.clock (s.row key)) then
        some (s.enter server (.ticking (found.map fun key => (key, s.row key))))
      else none
    | _ => none
  | .execute server =>
    match s.phase server with
    | .ticking ((key, row) :: queue) => some (execute job s server key row queue)
    | _ => none
  | .save server outcome stored =>
    match s.phase server with
    | .executed key row queue => some (save job s server outcome stored key row queue)
    | _ => none
  | .finish server =>
    match s.phase server with
    | .ticking [] => some (s.enter server .idle)
    | _ => none

abbrev Step (s : State I K R T) (a : Act I K O T) (t : State I K R T) : Prop :=
  step job keys s a = some t

end

/-! The law, and the condition on a step -/

/-- Two executions for one slot are by servers that may `share` it: by the same one, or none. -/
def Once (share : I → I → Prop) (s : State I K R T) : Prop :=
  s.executions.Pairwise fun later earlier =>
    later.key = earlier.key → later.slot = earlier.slot → share later.server earlier.server

/-- The row has not been advanced since it was loaded, and an execution for its slot that no save
has followed is by a server that may share it. -/
def Unclaimed (job : Job R O T) (share : I → I → Prop) (s : State I K R T) : Act I K O T → Prop
  | .execute server => ∀ key row queue, s.phase server = .ticking ((key, row) :: queue) →
      job.slot (s.row key) = job.slot row ∧
        ∀ e ∈ s.unsaved, e.key = key → e.slot = job.slot row → share server e.server
  | _ => True

/-! What a poller keeps -/

def Phase.queue : Phase K R → List (K × R)
  | .idle => []
  | .ticking queue | .executed _ _ queue => queue

def Phase.rows : Phase K R → List (K × R)
  | .executed key row queue => (key, row) :: queue
  | phase => phase.queue

/-- A row is due at its slot, and is advanced to a later one. -/
structure Job.Forward [LinearOrder T] (job : Job R O T) : Prop where
  due : ∀ now row, job.due now row = true → ∃ time, job.slot row = some time ∧ time ≤ now
  later : ∀ now outcome row next, job.advance now outcome row = some next →
    ∀ time, job.slot next = some time → now < time

/-- What a server has loaded. The row of a slot that it has not executed has moved on only where
another server has executed it; the slot that it has executed is still there. -/
structure Sound [LinearOrder T] (job : Job R O T) (s : State I K R T) (server : I)
    (phase : Phase K R) : Prop where
  keys : (phase.rows.map Prod.fst).Nodup
  due : ∀ x ∈ phase.rows, ∃ time, job.slot x.2 = some time ∧ time ≤ s.clock
  loaded : ∀ x ∈ phase.queue, job.slot (s.row x.1) = job.slot x.2 ∨
    ∃ e ∈ s.executions, e.server ≠ server ∧ e.key = x.1 ∧ e.slot = job.slot x.2
  executed : ∀ key row queue, phase = .executed key row queue →
    job.slot (s.row key) = job.slot row ∧ ⟨server, key, job.slot row⟩ ∈ s.executions

structure Inv [LinearOrder T] (job : Job R O T) (s : State I K R T) : Prop where
  phase : ∀ i, Sound job s i (s.phase i)
  past : ∀ e ∈ s.executions, ∃ time, e.slot = some time ∧ time ≤ s.clock
  saved : ∀ e ∈ s.executions, e ∈ s.unsaved ∨ job.slot (s.row e.key) ≠ e.slot
  unsaved : ∀ e ∈ s.unsaved, e ∈ s.executions

section
variable {job : Job R O T} {share : I → I → Prop} {s t : State I K R T}

/-- Executions for one slot are by one server. -/
theorem Once.server_eq (once : Once share s) (alone : ∀ i j, share i j → i = j)
    {a b : Execution I K T} (first : a ∈ s.executions) (second : b ∈ s.executions)
    (key : a.key = b.key) (slot : a.slot = b.slot) : a.server = b.server := by
  have forth : s.executions.Pairwise fun a b =>
      a.key = b.key → a.slot = b.slot → a.server = b.server :=
    once.imp fun related key slot => alone _ _ (related key slot)
  have back := forth.imp fun related key slot => (related (Eq.symm key) (Eq.symm slot)).symm
  exact List.Pairwise.forall_of_forall_of_flip (fun _ _ _ _ => rfl) forth back first second key slot

variable [LinearOrder T]

theorem sound_idle (server : I) : Sound job s server .idle where
  keys := List.nodup_nil
  due _ absent := absurd absent List.not_mem_nil
  loaded _ absent := absurd absent List.not_mem_nil
  executed _ _ _ other := by cases other

theorem start_inv (clock : T) (row : K → R) : Inv job (start (I := I) clock row) where
  phase := sound_idle
  past _ absent := absurd absent List.not_mem_nil
  saved _ absent := absurd absent List.not_mem_nil
  unsaved _ absent := absurd absent List.not_mem_nil

theorem Sound.mono {server : I} {phase : Phase K R} (sound : Sound job s server phase)
    (clock : s.clock ≤ t.clock) (row : t.row = s.row)
    (executions : ∀ e ∈ s.executions, e ∈ t.executions) : Sound job t server phase where
  keys := sound.keys
  due x among := by
    obtain ⟨time, slot, le⟩ := sound.due x among
    exact ⟨time, slot, le_trans le clock⟩
  loaded x among := by
    rw [row]
    exact (sound.loaded x among).imp_right fun ⟨e, known, other⟩ => ⟨e, executions e known, other⟩
  executed key loaded queue same := by
    obtain ⟨slot, known⟩ := sound.executed key loaded queue same
    rw [row]
    exact ⟨slot, executions _ known⟩

/-- The rest of the queue, when the first row is done with. -/
theorem Sound.rest {server : I} {phase : Phase K R} {queue : List (K × R)}
    (sound : Sound job s server phase) (rows : queue.Sublist phase.queue)
    (all : phase.queue.Sublist phase.rows) : Sound job s server (.ticking queue) where
  keys := sound.keys.sublist ((rows.trans all).map Prod.fst)
  due x among := sound.due x ((rows.trans all).subset among)
  loaded x among := sound.loaded x (rows.subset among)
  executed _ _ _ other := by cases other

theorem queue_sublist (phase : Phase K R) : phase.queue.Sublist phase.rows := by
  cases phase with
  | executed key row queue => exact List.sublist_cons_self _ _
  | _ => exact List.Sublist.refl _

/-- A row is advanced that a server has not executed, and that it finds executed where it has yet to
come to it. -/
theorem Sound.write [DecidableEq K] {server : I} {phase : Phase K R} {key : K} {next : R}
    (sound : Sound job s server phase) (clock : t.clock = s.clock)
    (row : t.row = Function.update s.row key next) (executions : t.executions = s.executions)
    (queued : ∀ x ∈ phase.queue, x.1 = key → ∃ e ∈ s.executions, e.server ≠ server ∧ e.key = x.1 ∧
      e.slot = job.slot x.2)
    (apart : ∀ row queue, phase ≠ .executed key row queue) : Sound job t server phase where
  keys := sound.keys
  due := clock ▸ sound.due
  loaded x among := by
    rw [row, executions]
    by_cases same : x.1 = key
    · exact .inr (queued x among same)
    · rw [Function.update_of_ne same]
      exact sound.loaded x among
  executed other loaded queue same := by
    have differs : other ≠ key := fun same' => apart loaded queue (same' ▸ same)
    rw [row, executions, Function.update_of_ne differs]
    exact sound.executed other loaded queue same

variable [DecidableEq I] {keys : List K}

/-- An execution keeps the law exactly when its slot is unclaimed. -/
theorem execute_once_iff (inv : Inv job s) (once : Once share s)
    (alone : ∀ i j, share i j → i = j) {server : I} {key : K} {row : R} {queue : List (K × R)}
    (next : s.phase server = .ticking ((key, row) :: queue)) :
    Once share (execute job s server key row queue) ↔
      job.slot (s.row key) = job.slot row ∧
        ∀ e ∈ s.unsaved, e.key = key → e.slot = job.slot row → share server e.server := by
  have split : Once share (execute job s server key row queue) ↔
      ∀ e ∈ s.executions, key = e.key → job.slot row = e.slot → share server e.server :=
    List.pairwise_cons.trans (and_iff_left once)
  rw [split]
  constructor
  · intro shared
    refine ⟨?_, fun e among key slot => shared e (inv.unsaved e among) key.symm slot.symm⟩
    have head : (key, row) ∈ (s.phase server).queue := by
      rw [next]
      exact List.mem_cons_self
    rcases (inv.phase server).loaded _ head with same | ⟨e, among, other, key, slot⟩
    · exact same
    · exact absurd (alone _ _ (shared e among key.symm slot.symm)).symm other
  · rintro ⟨same, unclaimed⟩ e among rfl slot
    rcases inv.saved e among with waits | advanced
    · exact unclaimed e waits rfl slot.symm
    · exact absurd (same.trans slot) advanced

/-- The servers that a step leaves alone, and the one that has moved. -/
theorem sound_update {server : I} {phase : Phase K R} (moved : Sound job t server phase)
    (others : ∀ i, i ≠ server → Sound job t i (s.phase i)) (i : I) :
    Sound job t i (Function.update s.phase server phase i) :=
  (Function.forall_update_iff s.phase fun i phase => Sound job t i phase).mpr ⟨moved, others⟩ i

/-- A server lets go of rows. -/
theorem Inv.enter (inv : Inv job s) {server : I} {phase : Phase K R}
    (moved : Sound job s server phase) : Inv job (s.enter server phase) where
  phase := sound_update (moved.mono (le_refl _) rfl fun _ known => known)
    fun i _ => (inv.phase i).mono (le_refl _) rfl fun _ known => known
  past := inv.past
  saved := inv.saved
  unsaved := inv.unsaved

theorem execute_inv (inv : Inv job s) {server : I} {key : K} {row : R} {queue : List (K × R)}
    (next : s.phase server = .ticking ((key, row) :: queue))
    (current : job.slot (s.row key) = job.slot row) :
    Inv job (execute job s server key row queue) := by
  have sound := inv.phase server
  rw [next] at sound
  have more : ∀ e ∈ s.executions, e ∈ (execute job s server key row queue).executions :=
    fun _ known => List.mem_cons_of_mem _ known
  refine ⟨?_, ?_, ?_, ?_⟩
  · refine sound_update ⟨sound.keys, sound.due, fun x among => ?_, ?_⟩
      fun i _ => (inv.phase i).mono (le_refl _) rfl more
    · exact (sound.loaded x (List.mem_cons_of_mem _ among)).imp_right
        fun ⟨e, known, other⟩ => ⟨e, more e known, other⟩
    · intro _ _ _ same
      cases same
      exact ⟨current, List.mem_cons_self⟩
  · exact List.forall_mem_cons.mpr ⟨sound.due (key, row) List.mem_cons_self, inv.past⟩
  · exact List.forall_mem_cons.mpr ⟨.inl List.mem_cons_self, fun e known =>
      (inv.saved e known).imp_left (List.mem_cons_of_mem _)⟩
  · exact List.forall_mem_cons.mpr ⟨List.mem_cons_self, fun e known => more e (inv.unsaved e known)⟩

theorem query_inv (inv : Inv job s) (forward : job.Forward) (unique : keys.Nodup) {server : I}
    {found : List K} (answer : found.Perm (keys.filter fun key => job.due s.clock (s.row key))) :
    Inv job (s.enter server (.ticking (found.map fun key => (key, s.row key)))) := by
  refine inv.enter ⟨?_, ?_, ?_, fun _ _ _ other => by cases other⟩
  · have names : (found.map fun key => (key, s.row key)).map Prod.fst = found := by
      rw [List.map_map]
      exact List.map_id found
    exact (congrArg List.Nodup names).mpr (answer.nodup_iff.mpr (unique.filter _))
  · intro x among
    obtain ⟨key, known, rfl⟩ := List.mem_map.mp among
    exact forward.due s.clock _ (List.mem_filter.mp (answer.mem_iff.mp known)).2
  · intro x among
    obtain ⟨key, known, rfl⟩ := List.mem_map.mp among
    exact .inl rfl

variable [DecidableEq K]

/-- A save takes no slot away that another server has executed, or is about to execute alone. -/
theorem save_inv (inv : Inv job s) (once : Once share s) (forward : job.Forward)
    (alone : ∀ i j, share i j → i = j) {server : I} {outcome : O} {stored : Bool} {key : K} {row : R}
    {queue : List (K × R)} (saving : s.phase server = .executed key row queue) :
    Inv job (save job s server outcome stored key row queue) := by
  have sound := inv.phase server
  rw [saving] at sound
  have rest : Sound job s server (.ticking queue) := sound.rest (List.Sublist.refl _) (queue_sublist _)
  obtain ⟨current, own⟩ := sound.executed key row queue rfl
  unfold save
  split
  · rename_i next saved
    have advanced : job.advance s.clock outcome row = some next := by
      split at saved
      · exact saved
      · cases saved
    refine ⟨?_, inv.past, fun e known => ?_, fun e waits => ?_⟩
    · refine sound_update (rest.write rfl rfl rfl ?_ fun _ _ other => by cases other) fun i other =>
        (inv.phase i).write rfl rfl rfl (fun x among same => ?_) fun row' queue' executing => ?_
      · intro x among same
        have apart : key ∉ queue.map Prod.fst := (List.nodup_cons.mp sound.keys).1
        exact absurd (List.mem_map.mpr ⟨x, among, same⟩) apart
      · rcases (inv.phase i).loaded x among with slot | executed
        · rw [same] at slot ⊢
          exact ⟨_, own, Ne.symm other, rfl, current.symm.trans slot⟩
        · exact executed
      · obtain ⟨slot, theirs⟩ := (inv.phase i).executed key row' queue' executing
        exact other (once.server_eq alone theirs own rfl (slot.symm.trans current))
    · by_cases same : e.key = key
      · right
        dsimp only
        rw [same, Function.update_self]
        intro slot
        obtain ⟨time, executed, past⟩ := inv.past e known
        exact absurd (forward.later _ _ _ _ advanced time (slot.trans executed)) (not_lt.mpr past)
      · dsimp only
        rw [Function.update_of_ne same]
        refine (inv.saved e known).imp_left fun waits => (List.mem_erase_of_ne fun own => ?_).mpr waits
        exact same (congrArg Execution.key own)
    · exact inv.unsaved e (List.mem_of_mem_erase waits)
  · refine inv.enter ?_
    split
    · exact sound_idle server
    · exact rest

theorem save_executions (job : Job R O T) (s : State I K R T) (server : I) (outcome : O)
    (stored : Bool) (key : K) (row : R) (queue : List (K × R)) :
    (save job s server outcome stored key row queue).executions = s.executions := by
  unfold save
  split <;> rfl

section
variable (job keys) (s)

/-- The steps that a server can take, and where they lead. -/
inductive Taken : Act I K O T → State I K R T → Prop where
  | wait {clock : T} (later : s.clock ≤ clock) : Taken (.wait clock) { s with clock := clock }
  | query {server : I} {found : List K}
      (answer : found.Perm (keys.filter fun key => job.due s.clock (s.row key))) :
      Taken (.query server found) (s.enter server (.ticking (found.map fun key => (key, s.row key))))
  | execute {server : I} {key : K} {row : R} {queue : List (K × R)}
      (next : s.phase server = .ticking ((key, row) :: queue)) :
      Taken (.execute server) (execute job s server key row queue)
  | save {server : I} {outcome : O} {stored : Bool} {key : K} {row : R} {queue : List (K × R)}
      (saving : s.phase server = .executed key row queue) :
      Taken (.save server outcome stored) (save job s server outcome stored key row queue)
  | finish {server : I} : Taken (.finish server) (s.enter server .idle)

end

theorem step_taken {a : Act I K O T} (taken : Step job keys s a t) : Taken job s keys a t := by
  cases a with
  | wait clock =>
    simp only [Step, step] at taken
    split at taken <;> cases taken
    exact .wait ‹_›
  | query server found =>
    simp only [Step, step] at taken
    split at taken
    · split at taken <;> cases taken
      exact .query ‹_›
    · cases taken
  | execute server =>
    simp only [Step, step] at taken
    split at taken <;> cases taken
    exact .execute ‹_›
  | save server outcome stored =>
    simp only [Step, step] at taken
    split at taken <;> cases taken
    exact .save ‹_›
  | finish server =>
    simp only [Step, step] at taken
    split at taken <;> cases taken
    exact .finish

theorem step_once_iff (inv : Inv job s) (once : Once share s) (alone : ∀ i j, share i j → i = j)
    {a : Act I K O T} (taken : Step job keys s a t) : Once share t ↔ Unclaimed job share s a := by
  cases step_taken taken with
  | wait | query | finish => exact iff_of_true once trivial
  | execute next =>
    rw [execute_once_iff inv once alone next]
    constructor
    · intro unclaimed key' row' queue' same
      cases next.symm.trans same
      exact unclaimed
    · exact fun unclaimed => unclaimed _ _ _ next
  | save saving =>
    refine iff_of_true ?_ trivial
    unfold Once
    rw [save_executions]
    exact once

theorem step_inv (inv : Inv job s) (once : Once share s) (forward : job.Forward)
    (unique : keys.Nodup) (alone : ∀ i j, share i j → i = j) {a : Act I K O T}
    (taken : Step job keys s a t) (unclaimed : Unclaimed job share s a) : Inv job t := by
  cases step_taken taken with
  | wait later =>
    refine ⟨fun i => (inv.phase i).mono later rfl fun _ known => known, fun e known => ?_,
      inv.saved, inv.unsaved⟩
    obtain ⟨time, slot, past⟩ := inv.past e known
    exact ⟨time, slot, le_trans past later⟩
  | query answer => exact query_inv inv forward unique answer
  | execute next => exact execute_inv inv next (unclaimed _ _ _ next).1
  | save saving => exact save_inv inv once forward alone saving
  | finish => exact inv.enter (sound_idle _)

/-- In every interleaving, the slots are executed as `share` allows exactly when each execution
finds its slot unclaimed. -/
theorem run_once_iff (forward : job.Forward) (unique : keys.Nodup)
    (alone : ∀ i j, share i j → i = j) {clock : T} {row : K → R}
    {steps : List (Transition (State I K R T) (Act I K O T))}
    (run : Run (Step job keys) (start clock row) steps s) :
    (∀ x ∈ steps, Once share x.post) ↔ ∀ x ∈ steps, Unclaimed job share x.pre x.label :=
  run.lawful_iff (Once share) (Unclaimed job share) (start_inv clock row) List.Pairwise.nil
    (fun _ _ _ inv once taken law =>
      step_inv inv once forward unique alone taken ((step_once_iff inv once alone taken).mp law))
    fun _ _ _ inv once taken => step_once_iff inv once alone taken

end

end Polling
