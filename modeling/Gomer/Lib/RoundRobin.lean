import Mathlib.Algebra.GroupWithZero.Nat
import Mathlib.Data.List.Perm.Basic
import Mathlib.Data.List.Nodup
import Mathlib.Tactic.Common

/-! Queues dealt out in turn: one item from the head of each, round after round. -/
namespace RoundRobin

variable {ι κ α β : Type*}

/-- The heads of the queues, in order, under their keys. -/
def heads (queues : List (ι × List α)) : List (ι × α) :=
  queues.filterMap fun queue => queue.2.head?.map (Prod.mk queue.1)

def tails (queues : List (ι × List α)) : List (ι × List α) :=
  queues.map fun queue => (queue.1, queue.2.tail)

def total (queues : List (ι × List α)) : Nat := (queues.map fun queue => queue.2.length).sum

def deal : Nat → List (ι × List α) → List (ι × α)
  | 0, _ => []
  | rounds + 1, queues => heads queues ++ deal rounds (tails queues)

/-- The items queue by queue, as a greedy loop would take them. -/
def drained (queues : List (ι × List α)) : List (ι × α) :=
  queues.flatMap fun queue => queue.2.map (Prod.mk queue.1)

@[simp] theorem heads_nil : heads ([] : List (ι × List α)) = [] := rfl

@[simp] theorem heads_cons_nil (key : ι) (queues : List (ι × List α)) :
    heads ((key, []) :: queues) = heads queues := rfl

@[simp] theorem heads_cons_cons (key : ι) (item : α) (rest : List α) (queues : List (ι × List α)) :
    heads ((key, item :: rest) :: queues) = (key, item) :: heads queues := rfl

@[simp] theorem tails_nil : tails ([] : List (ι × List α)) = [] := rfl

@[simp] theorem tails_cons (key : ι) (items : List α) (queues : List (ι × List α)) :
    tails ((key, items) :: queues) = (key, items.tail) :: tails queues := rfl

@[simp] theorem total_nil : total ([] : List (ι × List α)) = 0 := rfl

@[simp] theorem total_cons (key : ι) (items : List α) (queues : List (ι × List α)) :
    total ((key, items) :: queues) = items.length + total queues := rfl

theorem tails_keys (queues : List (ι × List α)) :
    (tails queues).map Prod.fst = queues.map Prod.fst := by
  simp [tails, Function.comp_def]

/-! What a round takes -/

theorem heads_total (queues : List (ι × List α)) :
    (heads queues).length + total (tails queues) = total queues := by
  induction queues with
  | nil => rfl
  | cons queue queues ih =>
    obtain ⟨key, items⟩ := queue
    cases items with
    | nil => simpa using ih
    | cons item rest =>
      simp only [heads_cons_cons, tails_cons, total_cons, List.length_cons, List.tail_cons]
      omega

theorem heads_eq_nil {queues : List (ι × List α)} : heads queues = [] ↔ total queues = 0 := by
  induction queues with
  | nil => simp
  | cons queue queues ih =>
    obtain ⟨key, items⟩ := queue
    cases items with
    | nil => simpa using ih
    | cons item rest => simp

theorem total_eq_zero {queues : List (ι × List α)} :
    total queues = 0 ↔ queues.any (fun queue => !queue.2.isEmpty) = false := by
  induction queues with
  | nil => simp
  | cons queue queues ih =>
    obtain ⟨key, items⟩ := queue
    cases items with
    | nil => simpa using ih
    | cons item rest => simp

theorem heads_drained (queues : List (ι × List α)) :
    (heads queues ++ drained (tails queues)).Perm (drained queues) := by
  induction queues with
  | nil => exact .refl _
  | cons queue queues ih =>
    obtain ⟨key, items⟩ := queue
    cases items with
    | nil => exact ih
    | cons item rest =>
      have later : (heads queues ++ (rest.map (Prod.mk key) ++ drained (tails queues))).Perm
          (rest.map (Prod.mk key) ++ drained queues) := by
        refine List.perm_append_comm_assoc _ _ _ |>.trans ?_
        exact ih.append_left _
      exact later.cons (key, item)

theorem tails_total_lt {queues : List (ι × List α)} {rounds : Nat}
    (enough : total queues ≤ rounds + 1) : total (tails queues) ≤ rounds := by
  have split := heads_total queues
  cases none : (heads queues).length with
  | zero =>
    have := heads_eq_nil.mp (List.length_eq_zero_iff.mp none)
    omega
  | succ taken => omega

/-- Enough rounds hand out every item exactly once. -/
theorem deal_perm {rounds : Nat} {queues : List (ι × List α)} (enough : total queues ≤ rounds) :
    (deal rounds queues).Perm (drained queues) := by
  induction rounds generalizing queues with
  | zero =>
    have empty : drained queues = [] := by
      have zero : total queues = 0 := Nat.le_zero.mp enough
      clear enough
      induction queues with
      | nil => rfl
      | cons queue queues ih =>
        obtain ⟨key, items⟩ := queue
        cases items with
        | nil => exact ih (by simpa using zero)
        | cons item rest => simp at zero
    rw [empty]
    exact .refl _
  | succ rounds ih =>
    exact ((ih (tails_total_lt enough)).append_left _).trans (heads_drained queues)

theorem drained_length (queues : List (ι × List α)) : (drained queues).length = total queues := by
  simp [drained, total, List.length_flatMap]

theorem deal_length {rounds : Nat} {queues : List (ι × List α)} (enough : total queues ≤ rounds) :
    (deal rounds queues).length = total queues := by
  rw [(deal_perm enough).length_eq, drained_length]

theorem deal_succ {rounds : Nat} {queues : List (ι × List α)} (enough : total queues ≤ rounds) :
    deal (rounds + 1) queues = deal rounds queues := by
  induction rounds generalizing queues with
  | zero =>
    have none : heads queues = [] := heads_eq_nil.mpr (Nat.le_zero.mp enough)
    simp [deal, none]
  | succ rounds ih => rw [deal, ih (tails_total_lt enough), deal]

/-- Once everything is dealt, further rounds add nothing. -/
theorem deal_stable {rounds : Nat} {queues : List (ι × List α)} (enough : total queues ≤ rounds) :
    deal rounds queues = deal (total queues) queues := by
  induction enough with
  | refl => rfl
  | step enough ih => rw [deal_succ enough, ih]

/-! Queues seen under other keys -/

theorem total_map (f : ι → κ) (g : α → β) (queues : List (ι × List α)) :
    total (queues.map (Prod.map f (List.map g))) = total queues := by
  simp [total, Function.comp_def]

theorem deal_map (f : ι → κ) (g : α → β) (rounds : Nat) (queues : List (ι × List α)) :
    deal rounds (queues.map (Prod.map f (List.map g))) =
      (deal rounds queues).map (Prod.map f g) := by
  have heads_map : ∀ queues : List (ι × List α),
      heads (queues.map (Prod.map f (List.map g))) = (heads queues).map (Prod.map f g) := by
    intro queues
    induction queues with
    | nil => rfl
    | cons queue queues ih =>
      obtain ⟨key, items⟩ := queue
      cases items with
      | nil => exact ih
      | cons item rest => exact congrArg (List.cons (f key, g item)) ih
  induction rounds generalizing queues with
  | zero => rfl
  | succ rounds ih =>
    have rest : tails (queues.map (Prod.map f (List.map g))) =
        (tails queues).map (Prod.map f (List.map g)) := by
      simp [tails, Function.comp_def]
    rw [deal, deal, List.map_append, heads_map, rest, ih]

theorem total_filter (queues : List (ι × List α)) :
    total (queues.filter fun queue => !queue.2.isEmpty) = total queues := by
  induction queues with
  | nil => rfl
  | cons queue queues ih =>
    obtain ⟨key, items⟩ := queue
    cases items with
    | nil => simpa using ih
    | cons item rest => simpa using ih

/-- Queues that are empty from the start can be left out. -/
theorem deal_filter (rounds : Nat) (queues : List (ι × List α)) :
    deal rounds (queues.filter fun queue => !queue.2.isEmpty) = deal rounds queues := by
  have heads_filter : ∀ queues : List (ι × List α),
      heads (queues.filter fun queue => !queue.2.isEmpty) = heads queues := by
    intro queues
    induction queues with
    | nil => rfl
    | cons queue queues ih =>
      obtain ⟨key, items⟩ := queue
      cases items with
      | nil => exact ih
      | cons item rest => exact congrArg (List.cons (key, item)) ih
  have tails_filter : ∀ queues : List (ι × List α),
      (tails (queues.filter fun queue => !queue.2.isEmpty)).filter (fun queue => !queue.2.isEmpty) =
        (tails queues).filter fun queue => !queue.2.isEmpty := by
    intro queues
    induction queues with
    | nil => rfl
    | cons queue queues ih =>
      obtain ⟨key, items⟩ := queue
      cases items with
      | nil => exact ih
      | cons item rest =>
        simp only [List.isEmpty_cons, Bool.not_false, List.filter_cons_of_pos, tails_cons]
        simp only [List.filter_cons, ih]
  induction rounds generalizing queues with
  | zero => rfl
  | succ rounds ih =>
    rw [deal, deal, heads_filter, ← ih (tails queues), ← tails_filter, ih]

/-! Fairness -/

variable [DecidableEq ι]

/-- How many of the items come from one queue. -/
def share (key : ι) (items : List (ι × α)) : Nat := items.countP fun item => item.1 = key

theorem share_append (key : ι) (items more : List (ι × α)) :
    share key (items ++ more) = share key items + share key more := List.countP_append

theorem share_heads {queues : List (ι × List α)} (keys : (queues.map Prod.fst).Nodup) {key : ι}
    {items : List α} (queue : (key, items) ∈ queues) :
    share key (heads queues) = min 1 items.length := by
  induction queues with
  | nil => cases queue
  | cons first queues ih =>
    obtain ⟨other, others⟩ := first
    obtain ⟨absent, keys⟩ := List.nodup_cons.mp keys
    have foreign : ∀ {rest : List (ι × List α)} {k : ι}, k ∉ rest.map Prod.fst →
        share k (heads rest) = 0 := by
      intro rest k missing
      refine List.countP_eq_zero.mpr fun item taken => ?_
      obtain ⟨source, member, head⟩ := List.mem_filterMap.mp taken
      obtain ⟨value, _, rfl⟩ := Option.map_eq_some_iff.mp head
      intro same
      exact missing (List.mem_map.mpr ⟨source, member, by simpa using same⟩)
    rcases List.mem_cons.mp queue with here | later
    · obtain ⟨rfl, rfl⟩ := Prod.mk.inj here
      cases items with
      | nil =>
        rw [heads_cons_nil, foreign absent]
        rfl
      | cons item rest =>
        have tail := foreign absent
        simp only [share] at tail
        simp [share, tail]
    · have differ : other ≠ key := by
        rintro rfl
        exact absent (List.mem_map.mpr ⟨_, later, rfl⟩)
      have ih := ih keys later
      cases others with
      | nil => exact ih
      | cons item rest =>
        simp only [share] at ih
        simp [share, differ, ih]

/-- Wherever dealing stops, some number of rounds is complete: every queue has given that many
items, or one more, unless it ran out. -/
theorem share_take {queues : List (ι × List α)} (keys : (queues.map Prod.fst).Nodup)
    (rounds m : Nat) : ∃ complete, ∀ key items, (key, items) ∈ queues →
      min complete items.length ≤ share key ((deal rounds queues).take m) ∧
        share key ((deal rounds queues).take m) ≤ min (complete + 1) items.length := by
  induction rounds generalizing queues m with
  | zero => exact ⟨0, fun key items _ => by simp [deal, share]⟩
  | succ rounds ih =>
    by_cases within : m ≤ (heads queues).length
    · refine ⟨0, fun key items queue => ⟨by simp, ?_⟩⟩
      rw [deal, List.take_append_of_le_length within, Nat.zero_add, ← share_heads keys queue]
      exact (List.take_sublist m _).countP_le
    · obtain ⟨complete, shares⟩ := @ih (tails queues) (by rwa [tails_keys])
        (m - (heads queues).length)
      refine ⟨complete + 1, fun key items queue => ?_⟩
      have rest := shares key items.tail (List.mem_map.mpr ⟨_, queue, rfl⟩)
      rw [deal, List.take_append, List.take_of_length_le (by omega), share_append,
        share_heads keys queue]
      rw [List.length_tail] at rest
      omega

/-- Two queues have given equally much up to one item, unless the lesser one ran out. -/
theorem deal_fair {queues : List (ι × List α)} (keys : (queues.map Prod.fst).Nodup)
    (rounds m : Nat) {key other : ι} {items others : List α} (lesser : (key, items) ∈ queues)
    (greater : (other, others) ∈ queues)
    (gap : share key ((deal rounds queues).take m) + 1 < share other ((deal rounds queues).take m)) :
    share key ((deal rounds queues).take m) = items.length := by
  obtain ⟨complete, shares⟩ := share_take keys rounds m
  have least := shares key items lesser
  have most := shares other others greater
  omega

end RoundRobin
