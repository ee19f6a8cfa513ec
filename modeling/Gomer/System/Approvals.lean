import Mathlib.Logic.Function.Basic
import Gomer.Lib.Trace
import Gomer.Slack.Interactions

/-! One approval token under `attachMessageTs` and any number of clicks. Each call reads the
token and writes it back or deletes it in separate steps, in any order. -/
namespace Gomer.Approvals

open Trace

/-- `attachMessageTs`, which runs once. -/
inductive Patch where
  | waiting
  | read (pending : PendingApproval)
  | finished

inductive Phase where
  | waiting
  | read (pending : PendingApproval)
  | approved (botToken : String) (pending : PendingApproval)
  | finished

/-- Redis under the token, the calls, and what they have done, the latest first. -/
structure State where
  store : Option PendingApproval
  patch : Patch
  phase : Nat → Phase
  deleted : List Nat
  executed : List (Nat × MetaAdsAction)
  sent : List SlackCall

/-- The token as `storePending` leaves it. -/
def stored (record : PendingApproval) : State where
  store := some record
  patch := .waiting
  phase := fun _ => .waiting
  deleted := []
  executed := []
  sent := []

inductive Act where
  | patchGet
  | patchSet
  | get (i : Nat)
  | del (i : Nat)
  | execute (i : Nat) (result : ActionResult)
  | expire

section
variable (token messageTs : String) (clicks : Nat → Click)

/-- The action of a click on this token. -/
def actionOf (i : Nat) : Option String :=
  (clicks i).route.bind fun routed => if routed.1 = token then some routed.2 else none

/-- The end of a call that found `pending`, or its next phase. -/
def afterGet (s : State) (i : Nat) (actionId : String) (pending : PendingApproval) : State :=
  match resolve (clicks i) actionId pending with
  | .silent calls => { s with phase := Function.update s.phase i .finished, sent := calls ++ s.sent }
  | _ => { s with phase := Function.update s.phase i (.read pending) }

def afterDel (s : State) (i : Nat) (actionId : String) (pending : PendingApproval) : State :=
  match resolve (clicks i) actionId pending with
  | .cancel botToken =>
    { s with store := none, phase := Function.update s.phase i .finished, deleted := i :: s.deleted,
             sent := updateResolved botToken pending (cancelledFooter (clicks i)) :: s.sent }
  | .approve botToken =>
    { s with store := none, phase := Function.update s.phase i (.approved botToken pending),
             deleted := i :: s.deleted,
             sent := updateResolved botToken pending (approvedFooter (clicks i)) :: s.sent }
  | .silent _ => s

def step (s : State) : Act → Option State
  | .patchGet =>
    match s.patch, s.store with
    | .waiting, none => some { s with patch := .finished }
    | .waiting, some pending => some { s with patch := .read pending }
    | _, _ => none
  | .patchSet =>
    match s.patch with
    | .read pending => some { s with store := some { pending with messageTs }, patch := .finished }
    | _ => none
  | .get i =>
    match s.phase i, actionOf token clicks i, s.store with
    | .waiting, some _, none =>
      some { s with phase := Function.update s.phase i .finished,
                    sent := (clicks i).respond "This approval has expired or was already handled." ++
                      s.sent }
    | .waiting, some actionId, some pending => some (afterGet clicks s i actionId pending)
    | _, _, _ => none
  | .del i =>
    match s.phase i, actionOf token clicks i with
    | .read pending, some actionId => some (afterDel clicks s i actionId pending)
    | _, _ => none
  | .execute i result =>
    match s.phase i with
    | .approved botToken pending =>
      some { s with phase := Function.update s.phase i .finished,
                    executed := (i, pending.action) :: s.executed,
                    sent := postResult botToken pending result :: s.sent }
    | _ => none
  | .expire => some { s with store := none }

abbrev Step (s : State) (a : Act) (t : State) : Prop := step token messageTs clicks s a = some t

/-- The click, should it find the record, approves it or cancels it. -/
def Approves (record : PendingApproval) (i : Nat) : Prop :=
  ∃ actionId botToken, actionOf token clicks i = some actionId ∧
    resolve (clicks i) actionId record = .approve botToken

def Cancels (record : PendingApproval) (i : Nat) : Prop :=
  ∃ actionId botToken, actionOf token clicks i = some actionId ∧
    resolve (clicks i) actionId record = .cancel botToken

/-- The write is executed at most once, as it was asked for, for its requester, and not
after a cancel. -/
structure Safe (record : PendingApproval) (s : State) : Prop where
  once : s.executed.length ≤ 1
  asked : ∀ x ∈ s.executed, (clicks x.1).clickerId = record.requesterSlackId ∧ x.2 = record.action
  kept : ∀ x ∈ s.executed, ∀ earlier, x.1 :: earlier <:+ s.deleted →
    ∀ c ∈ earlier, ¬ Cancels token clicks record c

/-- A click deletes the token while no other approving click has read it, and an approving
click finds no token that was written back after a deletion. -/
def Undisturbed (record : PendingApproval) (s : State) : Act → Prop
  | .get i => s.store ≠ none → Approves token clicks record i → s.deleted = []
  | .del i => ∀ j pending, j ≠ i → s.phase j = .read pending → ¬ Approves token clicks record j
  | _ => True

/-- Every call that started has come to its end. -/
def Finished (s : State) : Prop :=
  ∀ i, s.phase i = .waiting ∨ s.phase i = .finished

end

/-! What a step can do -/

/-- The parts of the record that a click depends on; the rest may be patched. -/
structure Same (record pending : PendingApproval) : Prop where
  requester : pending.requesterSlackId = record.requesterSlackId
  action : pending.action = record.action

section
variable {token messageTs : String} {clicks : Nat → Click} {record pending : PendingApproval}

inductive Effect (token messageTs : String) (clicks : Nat → Click) (s : State) : Act → State → Prop where
  | patchGet (patch : Patch) : s.patch = .waiting →
      (∀ pending, patch = .read pending → s.store = some pending) →
      Effect token messageTs clicks s .patchGet { s with patch }
  | patchSet (pending : PendingApproval) : s.patch = .read pending →
      Effect token messageTs clicks s .patchSet
        { s with store := some { pending with messageTs }, patch := .finished }
  | ended (i : Nat) (sent : List SlackCall) : s.phase i = .waiting →
      (∀ pending, s.store = some pending → ¬ Approves token clicks pending i) →
      Effect token messageTs clicks s (.get i)
        { s with phase := Function.update s.phase i .finished, sent }
  | read (i : Nat) (pending : PendingApproval) : s.phase i = .waiting → s.store = some pending →
      Approves token clicks pending i ∨ Cancels token clicks pending i →
      Effect token messageTs clicks s (.get i)
        { s with phase := Function.update s.phase i (.read pending) }
  | cancelled (i : Nat) (pending : PendingApproval) (sent : List SlackCall) :
      s.phase i = .read pending → Cancels token clicks pending i →
      Effect token messageTs clicks s (.del i)
        { s with store := none, phase := Function.update s.phase i .finished,
                 deleted := i :: s.deleted, sent }
  | approved (i : Nat) (botToken : String) (pending : PendingApproval) (sent : List SlackCall) :
      s.phase i = .read pending → Approves token clicks pending i →
      Effect token messageTs clicks s (.del i)
        { s with store := none, phase := Function.update s.phase i (.approved botToken pending),
                 deleted := i :: s.deleted, sent }
  | executed (i : Nat) (botToken : String) (pending : PendingApproval) (result : ActionResult)
      (sent : List SlackCall) : s.phase i = .approved botToken pending →
      Effect token messageTs clicks s (.execute i result)
        { s with phase := Function.update s.phase i .finished,
                 executed := (i, pending.action) :: s.executed, sent }
  | expired : Effect token messageTs clicks s .expire { s with store := none }

theorem afterGet_effect {s : State} {i : Nat} {actionId : String} (idle : s.phase i = .waiting)
    (named : actionOf token clicks i = some actionId) (present : s.store = some pending) :
    Effect token messageTs clicks s (.get i) (afterGet clicks s i actionId pending) := by
  unfold afterGet
  cases choice : resolve (clicks i) actionId pending with
  | silent calls =>
    refine .ended i _ idle fun other same => ?_
    cases present.symm.trans same
    rintro ⟨action, botToken, found, approve⟩
    cases named.symm.trans found
    cases choice.symm.trans approve
  | cancel botToken => exact .read i pending idle present (.inr ⟨actionId, botToken, named, choice⟩)
  | approve botToken => exact .read i pending idle present (.inl ⟨actionId, botToken, named, choice⟩)

theorem step_effect {s t : State} {a : Act} (reads : ∀ i pending, s.phase i = .read pending →
      Approves token clicks pending i ∨ Cancels token clicks pending i)
    (taken : step token messageTs clicks s a = some t) : Effect token messageTs clicks s a t := by
  cases a with
  | patchGet =>
    simp only [step] at taken
    split at taken <;> cases taken
    · rename_i idle _
      exact .patchGet .finished idle fun _ h => by cases h
    · rename_i pending idle present
      refine .patchGet (.read pending) idle fun _ h => ?_
      cases h
      exact present
  | patchSet =>
    simp only [step] at taken
    split at taken <;> cases taken
    rename_i pending held
    exact .patchSet pending held
  | get i =>
    simp only [step] at taken
    split at taken <;> cases taken
    · rename_i idle _ missing
      exact .ended i _ idle fun _ present => by cases missing.symm.trans present
    · rename_i actionId pending idle named present
      exact afterGet_effect idle named present
  | del i =>
    simp only [step] at taken
    split at taken <;> cases taken
    rename_i pending actionId held named
    unfold afterDel
    cases choice : resolve (clicks i) actionId pending with
    | silent calls =>
      rcases reads i pending held with ⟨other, botToken, same, chosen⟩ | ⟨other, botToken, same, chosen⟩
      all_goals
        cases named.symm.trans same
        cases choice.symm.trans chosen
    | cancel botToken => exact .cancelled i pending _ held ⟨actionId, botToken, named, choice⟩
    | approve botToken => exact .approved i botToken pending _ held ⟨actionId, botToken, named, choice⟩
  | execute i result =>
    simp only [step] at taken
    split at taken <;> cases taken
    rename_i botToken pending held
    exact .executed i botToken pending result _ held
  | expire =>
    cases taken
    exact .expired

/-! Clicks on a record and on a patched copy of it -/

theorem resolve_approve_iff {click : Click} {actionId botToken : String} :
    resolve click actionId pending = .approve botToken ↔ nonEmpty click.botToken = some botToken ∧
      actionId = approveActionId ∧ click.clickerId = pending.requesterSlackId := by
  have distinct : approveActionId ≠ cancelActionId := by decide
  unfold resolve
  cases nonEmpty click.botToken with
  | none => simp
  | some found =>
    by_cases cancel : actionId = cancelActionId
    · simp [cancel, distinct.symm]
    · by_cases approve : actionId = approveActionId
      · by_cases own : click.clickerId = pending.requesterSlackId <;> simp [distinct, approve, own]
      · simp [cancel, approve]

theorem resolve_cancel_iff {click : Click} {actionId botToken : String} :
    resolve click actionId pending = .cancel botToken ↔ nonEmpty click.botToken = some botToken ∧
      actionId = cancelActionId := by
  have distinct : approveActionId ≠ cancelActionId := by decide
  unfold resolve
  cases nonEmpty click.botToken with
  | none => simp
  | some found =>
    by_cases cancel : actionId = cancelActionId
    · simp [cancel]
    · by_cases approve : actionId = approveActionId
      · by_cases own : click.clickerId = pending.requesterSlackId <;> simp [distinct, approve, own]
      · simp [cancel, approve]

theorem Same.approves_iff (same : Same record pending) {i : Nat} :
    Approves token clicks pending i ↔ Approves token clicks record i := by
  simp only [Approves, resolve_approve_iff, same.requester]

theorem cancels_iff {i : Nat} : Cancels token clicks pending i ↔ Cancels token clicks record i := by
  simp only [Cancels, resolve_cancel_iff]

theorem not_cancels_of_approves {i : Nat} (approves : Approves token clicks record i) :
    ¬ Cancels token clicks record i := by
  obtain ⟨actionId, botToken, named, choice⟩ := approves
  rintro ⟨other, found, same, cancel⟩
  cases named.symm.trans same
  cases choice.symm.trans cancel

theorem requester_of_approves {i : Nat} (approves : Approves token clicks record i) :
    (clicks i).clickerId = record.requesterSlackId := by
  obtain ⟨actionId, botToken, _, choice⟩ := approves
  exact (resolve_approve_iff.mp choice).2.2

end

/-! The invariant of every run -/

section
variable {token messageTs : String} {clicks : Nat → Click} {record : PendingApproval}

/-- A click that deleted the token, other than to cancel, is executed or about to be. -/
structure Inv (token : String) (clicks : Nat → Click) (record : PendingApproval) (s : State) :
    Prop where
  store : ∀ pending, s.store = some pending → Same record pending
  patch : ∀ pending, s.patch = .read pending → Same record pending
  waiting : ∀ i, s.phase i = .waiting → i ∉ s.deleted
  reading : ∀ i pending, s.phase i = .read pending → Same record pending ∧ i ∉ s.deleted ∧
    (Approves token clicks record i ∨ Cancels token clicks record i)
  approved : ∀ i botToken pending, s.phase i = .approved botToken pending → Same record pending ∧
    i ∈ s.deleted ∧ Approves token clicks record i
  executed : ∀ x ∈ s.executed, s.phase x.1 = .finished ∧ x.1 ∈ s.deleted ∧
    Approves token clicks record x.1 ∧ x.2 = record.action
  deleted : ∀ i ∈ s.deleted, Cancels token clicks record i ∨
    (∃ botToken pending, s.phase i = .approved botToken pending) ∨ i ∈ s.executed.map (·.1)
  once : (s.executed.map (·.1)).Nodup

/-- What a call's phase is after one call moved on. -/
theorem phase_cases {f : Nat → Phase} {i j : Nat} {v w : Phase}
    (now : Function.update f i v j = w) : j = i ∧ v = w ∨ j ≠ i ∧ f j = w := by
  by_cases same : j = i
  · rw [same, Function.update_self] at now
    exact .inl ⟨same, now⟩
  · rw [Function.update_of_ne same] at now
    exact .inr ⟨same, now⟩

theorem inv_stored : Inv token clicks record (stored record) where
  store := by
    intro pending present
    cases present
    exact ⟨rfl, rfl⟩
  patch := by
    intro pending held
    cases held
  waiting := fun _ _ h => by cases h
  reading := by
    intro i pending held
    cases held
  approved := by
    intro i botToken pending held
    cases held
  executed := fun _ h => by cases h
  deleted := fun _ h => by cases h
  once := List.nodup_nil

/-- A call in `phase` moves on without touching the token or the two logs. -/
theorem Inv.moved {s : State} (inv : Inv token clicks record s) {i : Nat} {next : Phase}
    (sent : List SlackCall) (idle : s.phase i = .waiting)
    (rest : next = .finished ∨ ∃ pending, next = .read pending ∧ Same record pending ∧
      (Approves token clicks record i ∨ Cancels token clicks record i)) :
    Inv token clicks record { s with phase := Function.update s.phase i next, sent } := by
  have fresh := inv.waiting i idle
  have kept : ∀ x ∈ s.executed, x.1 ≠ i := by
    rintro x member rfl
    exact fresh (inv.executed x member).2.1
  constructor
  · exact inv.store
  · exact inv.patch
  · intro j now
    rcases phase_cases now with ⟨rfl, rfl⟩ | ⟨_, now⟩
    · exact fresh
    · exact inv.waiting j now
  · intro j pending now
    rcases phase_cases now with ⟨rfl, rfl⟩ | ⟨_, now⟩
    · rcases rest with none | ⟨_, same, copy, kind⟩
      · cases none
      · cases same
        exact ⟨copy, fresh, kind⟩
    · exact inv.reading j pending now
  · intro j botToken pending now
    rcases phase_cases now with ⟨rfl, rfl⟩ | ⟨_, now⟩
    · rcases rest with none | ⟨_, same, _⟩
      · cases none
      · cases same
    · exact inv.approved j botToken pending now
  · intro x member
    obtain ⟨finished, facts⟩ := inv.executed x member
    refine ⟨?_, facts⟩
    change Function.update s.phase i next x.1 = .finished
    rw [Function.update_of_ne (kept x member)]
    exact finished
  · intro j member
    have other : j ≠ i := by
      rintro rfl
      exact fresh member
    rcases inv.deleted j member with cancels | ⟨botToken, pending, held⟩ | done
    · exact .inl cancels
    · refine .inr (.inl ⟨botToken, pending, ?_⟩)
      change Function.update s.phase i next j = _
      rw [Function.update_of_ne other]
      exact held
    · exact .inr (.inr done)
  · exact inv.once

/-- A call that read the token deletes it. -/
theorem Inv.cleared {s : State} (inv : Inv token clicks record s) {i : Nat} {next : Phase}
    {pending : PendingApproval} (sent : List SlackCall) (held : s.phase i = .read pending)
    (rest : next = .finished ∧ Cancels token clicks record i ∨
      ∃ botToken, next = .approved botToken pending ∧ Approves token clicks record i) :
    Inv token clicks record { s with
      store := none
      phase := Function.update s.phase i next
      deleted := i :: s.deleted
      sent } := by
  obtain ⟨copy, fresh, _⟩ := inv.reading i pending held
  have kept : ∀ x ∈ s.executed, x.1 ≠ i := by
    rintro x member rfl
    exact fresh (inv.executed x member).2.1
  constructor
  · intro _ none
    cases none
  · exact inv.patch
  · intro j now
    rcases phase_cases now with ⟨_, same⟩ | ⟨other, now⟩
    · rcases rest with ⟨rfl, _⟩ | ⟨_, rfl, _⟩ <;> cases same
    · exact List.not_mem_cons_of_ne_of_not_mem other (inv.waiting j now)
  · intro j _ now
    rcases phase_cases now with ⟨_, same⟩ | ⟨other, now⟩
    · rcases rest with ⟨rfl, _⟩ | ⟨_, rfl, _⟩ <;> cases same
    · obtain ⟨copy, absent, kind⟩ := inv.reading j _ now
      exact ⟨copy, List.not_mem_cons_of_ne_of_not_mem other absent, kind⟩
  · intro j _ _ now
    rcases phase_cases now with ⟨rfl, same⟩ | ⟨_, now⟩
    · rcases rest with ⟨rfl, _⟩ | ⟨_, rfl, approves⟩
      · cases same
      · cases same
        exact ⟨copy, List.mem_cons_self, approves⟩
    · obtain ⟨copy, member, approves⟩ := inv.approved j _ _ now
      exact ⟨copy, List.mem_cons_of_mem _ member, approves⟩
  · intro x member
    obtain ⟨finished, removed, facts⟩ := inv.executed x member
    refine ⟨?_, List.mem_cons_of_mem _ removed, facts⟩
    change Function.update s.phase i next x.1 = .finished
    rw [Function.update_of_ne (kept x member)]
    exact finished
  · intro j member
    change _ ∨ (∃ botToken pending, Function.update s.phase i next j = _) ∨ _
    by_cases same : j = i
    · rw [same, Function.update_self]
      rcases rest with ⟨_, cancels⟩ | ⟨botToken, next, _⟩
      · exact .inl cancels
      · exact .inr (.inl ⟨botToken, pending, next⟩)
    · rw [Function.update_of_ne same]
      exact inv.deleted j ((List.mem_cons.mp member).resolve_left same)
  · exact inv.once

theorem Inv.ran {s : State} (inv : Inv token clicks record s) {i : Nat} {botToken : String}
    {pending : PendingApproval} (sent : List SlackCall)
    (held : s.phase i = .approved botToken pending) :
    Inv token clicks record { s with
      phase := Function.update s.phase i .finished
      executed := (i, pending.action) :: s.executed
      sent } := by
  obtain ⟨copy, removed, approves⟩ := inv.approved i botToken pending held
  have unexecuted : ∀ x ∈ s.executed, x.1 ≠ i := by
    rintro x member rfl
    cases (inv.executed x member).1.symm.trans held
  constructor
  · exact inv.store
  · exact inv.patch
  · intro j now
    rcases phase_cases now with ⟨_, same⟩ | ⟨_, now⟩
    · cases same
    · exact inv.waiting j now
  · intro j _ now
    rcases phase_cases now with ⟨_, same⟩ | ⟨_, now⟩
    · cases same
    · exact inv.reading j _ now
  · intro j _ _ now
    rcases phase_cases now with ⟨_, same⟩ | ⟨_, now⟩
    · cases same
    · exact inv.approved j _ _ now
  · intro x member
    change Function.update s.phase i .finished x.1 = .finished ∧ _
    rcases List.mem_cons.mp member with rfl | member
    · exact ⟨Function.update_self .., removed, approves, copy.action⟩
    · rw [Function.update_of_ne (unexecuted x member)]
      exact inv.executed x member
  · intro j member
    change _ ∨ (∃ botToken pending, Function.update s.phase i .finished j = _) ∨
      j ∈ i :: s.executed.map (·.1)
    by_cases same : j = i
    · rw [same]
      exact .inr (.inr List.mem_cons_self)
    · rw [Function.update_of_ne same]
      exact (inv.deleted j member).imp_right (Or.imp_right (List.mem_cons_of_mem i))
  · apply List.nodup_cons.mpr
    refine ⟨?_, inv.once⟩
    intro again
    obtain ⟨x, member, same⟩ := List.mem_map.mp again
    exact unexecuted x member same

theorem Inv.effect {s t : State} {a : Act} (inv : Inv token clicks record s)
    (taken : step token messageTs clicks s a = some t) : Effect token messageTs clicks s a t := by
  refine step_effect (fun i pending held => ?_) taken
  obtain ⟨copy, _, kind⟩ := inv.reading i pending held
  exact kind.imp copy.approves_iff.mpr cancels_iff.mpr

theorem inv_step {s t : State} {a : Act} (inv : Inv token clicks record s)
    (taken : step token messageTs clicks s a = some t) : Inv token clicks record t := by
  cases inv.effect taken with
  | patchGet patch idle held =>
    refine { inv with patch := fun pending now => ?_ }
    exact inv.store pending (held pending now)
  | patchSet pending held =>
    have copy := inv.patch pending held
    refine { inv with store := fun other now => ?_, patch := fun _ now => by cases now }
    cases now
    exact ⟨copy.requester, copy.action⟩
  | ended i sent idle unable => exact inv.moved sent idle (.inl rfl)
  | read i pending idle present kind =>
    have copy := inv.store pending present
    exact inv.moved s.sent idle
      (.inr ⟨pending, rfl, copy, kind.imp copy.approves_iff.mp cancels_iff.mp⟩)
  | cancelled i pending sent held cancels =>
    exact inv.cleared sent held (.inl ⟨rfl, cancels_iff.mp cancels⟩)
  | approved i botToken pending sent held approves =>
    have copy := (inv.reading i pending held).1
    exact inv.cleared sent held (.inr ⟨botToken, rfl, copy.approves_iff.mp approves⟩)
  | executed i botToken pending result sent held => exact inv.ran sent held
  | expired => exact { inv with store := fun _ now => by cases now }

/-! Undisturbed runs -/

/-- An approving click that holds the token is alone with it, and one that deleted it was
the first to. -/
structure Guarded (token : String) (clicks : Nat → Click) (record : PendingApproval) (s : State) :
    Prop where
  alone : ∀ i pending, s.phase i = .read pending → Approves token clicks record i → s.deleted = []
  first : ∀ i earlier, i :: earlier <:+ s.deleted → Approves token clicks record i → earlier = []

/-- A step that leaves the deletions as they were. -/
theorem Guarded.moved {s t : State} (guarded : Guarded token clicks record s)
    (deleted : t.deleted = s.deleted)
    (alone : ∀ i pending, t.phase i = .read pending → Approves token clicks record i →
      s.phase i = .read pending ∨ s.deleted = []) : Guarded token clicks record t := by
  constructor
  · intro i pending held approves
    rw [deleted]
    rcases alone i pending held approves with before | none
    · exact guarded.alone i pending before approves
    · exact none
  · rw [deleted]
    exact guarded.first

/-- The click that deletes the token is the only one that could still approve. -/
theorem Guarded.cleared {s : State} (guarded : Guarded token clicks record s) {i : Nat}
    {next : Phase} {pending : PendingApproval} (sent : List SlackCall)
    (held : s.phase i = .read pending) (rest : ∀ other, next ≠ .read other)
    (calm : ∀ j other, j ≠ i → s.phase j = .read other → ¬ Approves token clicks record j) :
    Guarded token clicks record
      { s with
        store := none
        phase := Function.update s.phase i next
        deleted := i :: s.deleted
        sent } := by
  constructor
  · intro j other now approves
    rcases phase_cases now with ⟨_, same⟩ | ⟨apart, now⟩
    · exact absurd same (rest other)
    · exact absurd approves (calm j other apart now)
  · intro j earlier suffix approves
    rcases List.suffix_cons_iff.mp suffix with whole | part
    · obtain ⟨rfl, rfl⟩ := List.cons.inj whole
      exact guarded.alone j pending held approves
    · exact guarded.first j earlier part approves

theorem guarded_step {s t : State} {a : Act} (inv : Inv token clicks record s)
    (guarded : Guarded token clicks record s) (calm : Undisturbed token clicks record s a)
    (taken : step token messageTs clicks s a = some t) : Guarded token clicks record t := by
  cases inv.effect taken with
  | patchGet patch idle held => exact ⟨guarded.alone, guarded.first⟩
  | patchSet pending held => exact ⟨guarded.alone, guarded.first⟩
  | ended i sent idle unable =>
    refine Guarded.moved guarded ?_ ?_
    · rfl
    intro j pending now _
    rcases phase_cases now with ⟨_, same⟩ | ⟨_, now⟩
    · cases same
    · exact .inl now
  | read i pending idle present kind =>
    refine Guarded.moved guarded ?_ ?_
    · rfl
    intro j other now approves
    rcases phase_cases now with ⟨rfl, _⟩ | ⟨_, now⟩
    · exact .inr (calm (present ▸ Option.some_ne_none pending) approves)
    · exact .inl now
  | cancelled i pending sent held cancels =>
    exact guarded.cleared sent held (fun _ same => by cases same) calm
  | approved i botToken pending sent held approves =>
    exact guarded.cleared sent held (fun _ same => by cases same) calm
  | executed i botToken pending result sent held =>
    refine Guarded.moved guarded ?_ ?_
    · rfl
    intro j other now _
    rcases phase_cases now with ⟨_, same⟩ | ⟨_, now⟩
    · cases same
    · exact .inl now
  | expired => exact ⟨guarded.alone, guarded.first⟩

theorem suffix_of_mem {i : Nat} {deleted : List Nat} (member : i ∈ deleted) :
    ∃ earlier, i :: earlier <:+ deleted := by
  obtain ⟨later, earlier, rfl⟩ := List.append_of_mem member
  exact ⟨earlier, List.suffix_append later _⟩

theorem safe_of_guarded {s : State} (inv : Inv token clicks record s)
    (guarded : Guarded token clicks record s) : Safe token clicks record s := by
  have only : ∀ x ∈ s.executed, ∀ earlier, x.1 :: earlier <:+ s.deleted → earlier = [] := by
    intro x member earlier suffix
    exact guarded.first x.1 earlier suffix (inv.executed x member).2.2.1
  constructor
  · -- Both executed calls would be the one that deleted the token first.
    have last : ∀ x ∈ s.executed, [x.1] <:+ s.deleted := by
      intro x member
      obtain ⟨earlier, suffix⟩ := suffix_of_mem (inv.executed x member).2.1
      rw [only x member earlier suffix] at suffix
      exact suffix
    have once := inv.once
    match runs : s.executed with
    | [] => exact Nat.zero_le 1
    | [x] => exact Nat.le_refl 1
    | x :: y :: rest =>
      rw [runs] at once last
      have same : x.1 = y.1 := by
        obtain ⟨p, hp⟩ := last x List.mem_cons_self
        obtain ⟨q, hq⟩ := last y (List.mem_cons_of_mem x List.mem_cons_self)
        exact (List.append_inj_right' (hp.trans hq.symm) rfl |> List.cons.inj).1
      simp [same] at once
  · intro x member
    obtain ⟨_, _, approves, action⟩ := inv.executed x member
    exact ⟨requester_of_approves approves, action⟩
  · intro x member earlier suffix c cancelled
    rw [only x member earlier suffix] at cancelled
    cases cancelled

/-! Disturbed runs -/

/-- The approving click `i` goes on although `j` has deleted the token before it. -/
structure Overtaken (token : String) (clicks : Nat → Click) (record : PendingApproval) (s : State)
    (i j : Nat) : Prop where
  approves : Approves token clicks record i
  other : i ≠ j
  before : j ∈ s.deleted
  after : (∃ pending, s.phase i = .read pending) ∨ ∃ earlier, i :: earlier <:+ s.deleted ∧ j ∈ earlier

theorem overtaken_step {s t : State} {a : Act} {i j : Nat} (inv : Inv token clicks record s)
    (overtaken : Overtaken token clicks record s i j)
    (taken : step token messageTs clicks s a = some t) : Overtaken token clicks record t i j := by
  obtain ⟨approves, other, before, after⟩ := overtaken
  have elsewhere : ∀ {k : Nat} {next : Phase}, (∀ pending, s.phase k ≠ .read pending) →
      ((∃ pending, s.phase i = .read pending) →
        ∃ pending, Function.update s.phase k next i = .read pending) := by
    rintro k next moving ⟨pending, held⟩
    refine ⟨pending, ?_⟩
    rw [Function.update_of_ne]
    · exact held
    · rintro rfl
      exact moving pending held
  have cleared : ∀ {k : Nat} {next : Phase} {pending : PendingApproval},
      s.phase k = .read pending →
      (∃ pending, Function.update s.phase k next i = .read pending) ∨
        ∃ earlier, i :: earlier <:+ k :: s.deleted ∧ j ∈ earlier := by
    intro k next pending held
    rcases after with ⟨other, reading⟩ | ⟨earlier, suffix, member⟩
    · by_cases same : i = k
      · rw [same]
        exact .inr ⟨s.deleted, List.suffix_refl _, before⟩
      · refine .inl ⟨other, ?_⟩
        rw [Function.update_of_ne same]
        exact reading
    · exact .inr ⟨earlier, suffix.trans (List.suffix_cons k _), member⟩
  cases inv.effect taken with
  | patchGet patch idle held => exact ⟨approves, other, before, after⟩
  | patchSet pending held => exact ⟨approves, other, before, after⟩
  | ended k sent idle unable =>
    exact ⟨approves, other, before, after.imp_left (elsewhere fun _ held => by cases idle.symm.trans held)⟩
  | read k pending idle present kind =>
    exact ⟨approves, other, before, after.imp_left (elsewhere fun _ held => by cases idle.symm.trans held)⟩
  | cancelled k pending sent held cancels =>
    exact ⟨approves, other, List.mem_cons_of_mem _ before, cleared held⟩
  | approved k botToken pending sent held approving =>
    exact ⟨approves, other, List.mem_cons_of_mem _ before, cleared held⟩
  | executed k botToken pending result sent held =>
    exact ⟨approves, other, before, after.imp_left (elsewhere fun _ now => by cases held.symm.trans now)⟩
  | expired => exact ⟨approves, other, before, after⟩

/-- A step that is not undisturbed leaves a click overtaken. -/
theorem overtaken_of_disturbed {s t : State} {a : Act} (inv : Inv token clicks record s)
    (disturbed : ¬ Undisturbed token clicks record s a)
    (taken : step token messageTs clicks s a = some t) :
    ∃ i j, Overtaken token clicks record t i j := by
  cases inv.effect taken with
  | patchGet patch idle held => exact absurd trivial disturbed
  | patchSet pending held => exact absurd trivial disturbed
  | ended i sent idle unable =>
    simp only [Undisturbed, not_forall] at disturbed
    obtain ⟨present, approves, _⟩ := disturbed
    obtain ⟨pending, found⟩ := Option.ne_none_iff_exists'.mp present
    exact absurd ((inv.store pending found).approves_iff.mpr approves) (unable pending found)
  | read i pending idle present kind =>
    simp only [Undisturbed, not_forall] at disturbed
    obtain ⟨_, approves, begun⟩ := disturbed
    obtain ⟨j, member⟩ := List.exists_mem_of_ne_nil _ begun
    refine ⟨i, j, approves, ?_, member, .inl ⟨pending, Function.update_self ..⟩⟩
    rintro rfl
    exact inv.waiting i idle member
  | cancelled i pending sent held cancels =>
    simp only [Undisturbed, not_forall, not_not] at disturbed
    obtain ⟨j, other, apart, reading, approves⟩ := disturbed
    refine ⟨j, i, approves, apart, List.mem_cons_self, .inl ⟨other, ?_⟩⟩
    exact (Function.update_of_ne apart ..).trans reading
  | approved i botToken pending sent held approving =>
    simp only [Undisturbed, not_forall, not_not] at disturbed
    obtain ⟨j, other, apart, reading, approves⟩ := disturbed
    refine ⟨j, i, approves, apart, List.mem_cons_self, .inl ⟨other, ?_⟩⟩
    exact (Function.update_of_ne apart ..).trans reading
  | executed i botToken pending result sent held => exact absurd trivial disturbed
  | expired => exact absurd trivial disturbed

theorem not_safe_of_overtaken {s : State} {i j : Nat} (inv : Inv token clicks record s)
    (finished : Finished s) (overtaken : Overtaken token clicks record s i j) :
    ¬ Safe token clicks record s := by
  have approved_ran : ∀ k ∈ s.deleted, ¬ Cancels token clicks record k →
      k ∈ s.executed.map (·.1) := by
    intro k member approves
    rcases inv.deleted k member with cancels | ⟨botToken, pending, held⟩ | ran
    · exact absurd cancels approves
    · rcases finished k with idle | done
      · cases held.symm.trans idle
      · cases held.symm.trans done
    · exact ran
  obtain ⟨approves, other, before, ⟨pending, held⟩ | ⟨earlier, suffix, member⟩⟩ := overtaken
  · rcases finished i with idle | done
    · cases held.symm.trans idle
    · cases held.symm.trans done
  · intro safe
    have ran := approved_ran i (suffix.subset List.mem_cons_self) (not_cancels_of_approves approves)
    obtain ⟨x, executed, rfl⟩ := List.mem_map.mp ran
    have twin := approved_ran j before (safe.kept x executed earlier suffix j member)
    obtain ⟨y, again, rfl⟩ := List.mem_map.mp twin
    have single := safe.once
    match runs : s.executed with
    | [] => rw [runs] at executed; cases executed
    | [z] =>
      rw [runs] at executed again
      cases List.mem_singleton.mp executed
      cases List.mem_singleton.mp again
      exact other rfl
    | _ :: _ :: _ =>
      rw [runs] at single
      simp at single

/-- Up to here the run was undisturbed, or some click is overtaken. -/
theorem undisturbed_or_overtaken {steps : List (Transition State Act)} {s : State}
    (run : Run (Step token messageTs clicks) (stored record) steps s) :
    (∀ x ∈ steps, Undisturbed token clicks record x.pre x.label) ∨
      ∃ i j, Overtaken token clicks record s i j := by
  induction run with
  | nil => exact .inl fun _ h => by cases h
  | @snoc steps s t a earlier taken ih =>
    have inv : Inv token clicks record s :=
      earlier.invariant inv_stored fun _ _ _ inv taken => inv_step inv taken
    rcases ih with calm | ⟨i, j, overtaken⟩
    · by_cases now : Undisturbed token clicks record s a
      · simp only [List.forall_mem_append, List.forall_mem_singleton]
        exact .inl ⟨calm, now⟩
      · exact .inr (overtaken_of_disturbed inv now taken)
    · exact .inr ⟨i, j, overtaken_step inv overtaken taken⟩

theorem guarded_run {steps : List (Transition State Act)} {s : State}
    (run : Run (Step token messageTs clicks) (stored record) steps s)
    (calm : ∀ x ∈ steps, Undisturbed token clicks record x.pre x.label) :
    Guarded token clicks record s := by
  induction run with
  | nil =>
    constructor
    · intro i pending held
      cases held
    · intro i earlier suffix
      cases List.suffix_nil.mp suffix
  | @snoc steps s t a earlier taken ih =>
    have inv : Inv token clicks record s :=
      earlier.invariant inv_stored fun _ _ _ inv taken => inv_step inv taken
    simp only [List.forall_mem_append, List.forall_mem_singleton] at calm
    exact guarded_step inv (ih calm.1) calm.2 taken

/-- The write is safe in every undisturbed run, and in no other one whose calls all ended. -/
theorem safe_iff_undisturbed {steps : List (Transition State Act)} {s : State}
    (run : Run (Step token messageTs clicks) (stored record) steps s) :
    ((∀ x ∈ steps, Undisturbed token clicks record x.pre x.label) →
        Safe token clicks record s) ∧
      (Finished s → (Safe token clicks record s ↔
        ∀ x ∈ steps, Undisturbed token clicks record x.pre x.label)) := by
  have inv : Inv token clicks record s :=
    run.invariant inv_stored fun _ _ _ inv taken => inv_step inv taken
  have enough : (∀ x ∈ steps, Undisturbed token clicks record x.pre x.label) →
      Safe token clicks record s := fun calm =>
    safe_of_guarded inv (guarded_run run calm)
  refine ⟨enough, fun finished => ⟨fun safe => ?_, enough⟩⟩
  rcases undisturbed_or_overtaken run with calm | ⟨i, j, overtaken⟩
  · exact calm
  · exact absurd safe (not_safe_of_overtaken inv finished overtaken)

end

def pauseRecord : PendingApproval where
  workspaceId := 1
  requesterUserId := some 1
  requesterSlackId := "U1"
  requesterName := "Ada"
  teamId := "T1"
  channel := "C1"
  threadTs := none
  messageTs := ""
  toolName := "meta_ads_update_campaign"
  input := .obj []
  label := "Update campaign"
  answer := "I will pause the campaign."

def clickOn (actionId : String) : Click where
  payload :=
    { type := some "block_actions", userId := some "U1", actions := [⟨some actionId, some "t"⟩] }
  botToken := some "xoxb"

/-- The even calls approve, the odd ones cancel. -/
def requesterClicks (i : Nat) : Click :=
  clickOn (if i % 2 = 0 then approveActionId else cancelActionId)

def done : ActionResult := ⟨true, "Done"⟩

def doubleClick : List Act := [.get 0, .get 2, .del 0, .del 2, .execute 0 done, .execute 2 done]

/-- The second press reads the token before the first one has deleted it. -/
theorem double_click_executes_twice :
    ∃ steps s, Run (Step "t" "1.0" requesterClicks) (stored pauseRecord) steps s ∧
      s.executed.length = 2 ∧ ¬ Safe "t" requesterClicks pauseRecord s := by
  have outcome : ((follow (step "t" "1.0" requesterClicks) (stored pauseRecord) doubleClick).map
      fun r => r.2.executed.length) = some 2 := by decide +kernel
  obtain ⟨⟨steps, s⟩, ran, twice⟩ := Option.map_eq_some_iff.mp outcome
  refine ⟨steps, s, follow_run ran, twice, fun safe => ?_⟩
  have once := safe.once
  change s.executed.length = 2 at twice
  omega

/-- While nobody else has read the token, a deletion disturbs no one. -/
theorem undisturbed_alone {token : String} {clicks : Nat → Click} {record : PendingApproval}
    {s : State} {i : Nat} (alone : ∀ j, j ≠ i → s.phase j = .waiting) :
    Undisturbed token clicks record s (.del i) := by
  intro j pending other held
  cases (alone j other).symm.trans held

theorem single_click_executes_once :
    ∃ steps s, Run (Step "t" "1.0" requesterClicks) (stored pauseRecord) steps s ∧
      s.executed.length = 1 ∧ Safe "t" requesterClicks pauseRecord s := by
  have read := Run.nil.snoc (show Step "t" "1.0" requesterClicks (stored pauseRecord) (.get 0) _ from rfl)
  have deleted := read.snoc (show Step "t" "1.0" requesterClicks _ (.del 0) _ from rfl)
  have ran := deleted.snoc (show Step "t" "1.0" requesterClicks _ (.execute 0 done) _ from rfl)
  refine ⟨_, _, ran, by decide +kernel, (safe_iff_undisturbed ran).1 ?_⟩
  simp only [List.nil_append, List.cons_append, List.forall_mem_cons]
  refine ⟨?_, ?_, ?_, fun _ h => by cases h⟩
  · intro _ _
    rfl
  · apply undisturbed_alone
    intro j other
    exact Function.update_of_ne other ..
  · trivial

end Gomer.Approvals
