import Gomer.Ai.Transcript

/-! What every request of a run says of the events before it: a relation between the messages and
the log that holds at the start of a run and is kept by its iterations holds of each request. -/
namespace Gomer.Ai

/-- Every request tells what came before it. -/
def Told (tells : List ProviderMessage → List Event → Prop) (log : List Event) : Prop :=
  ∀ before request after, log = before ++ .sent request :: after → tells request.messages before

section
variable {tells : List ProviderMessage → List Event → Prop}

theorem Told.snoc {log : List Event} {event : Event} (told : Told tells log)
    (next : ∀ request, event = .sent request → tells request.messages log) :
    Told tells (log ++ [event]) := by
  intro before request after split
  rcases List.eq_nil_or_concat after with rfl | ⟨first, last, rfl⟩
  · obtain ⟨rfl, same⟩ := List.append_inj' split rfl
    exact next request (List.cons.inj same).1
  · rw [List.concat_eq_append, ← List.cons_append, ← List.append_assoc] at split
    exact told before request first (List.append_inj' split rfl).1

theorem Told.append {log more : List Event} (told : Told tells log)
    (quiet : sentRequests more = []) : Told tells (log ++ more) := by
  induction more generalizing log with
  | nil => rwa [List.append_nil]
  | cons event rest ih =>
    rw [← List.singleton_append, ← List.append_assoc]
    rw [← List.singleton_append, sentRequests_append, List.append_eq_nil_iff] at quiet
    refine ih (told.snoc fun request same => ?_) quiet.2
    rw [same] at quiet
    cases quiet.1

/-- What an iteration keeps; `good` is what the provider promises of its responses. -/
structure KeptTelling (tells : List ProviderMessage → List Event → Prop)
    (good : ProviderResponse → Prop) : Prop where
  start : ∀ ctx, tells (startRun ctx).messages []
  sent : ∀ messages before request, tells messages before →
    tells messages (before ++ [.sent request])
  failed : ∀ messages before e, tells messages before → tells messages (before ++ [.failed e])
  again : ∀ ctx t response u earlier, t.log = earlier ++ [.received response] →
    tells t.messages earlier → good response →
    Continued ctx (receive t response) response (true, u) → tells u.messages u.log

/-- Between two iterations. -/
structure Telling (tells : List ProviderMessage → List Event → Prop) (s : RunState) : Prop where
  told : Told tells s.log
  now : tells s.messages s.log

variable {good : ProviderResponse → Prop} {ctx : RunContext} {world : TurnWorld} {s t : RunState}

/-- A request leaves everything as it was between iterations, but for the entry of its outcome. -/
theorem Telling.asked {outcome : Except ProviderError ProviderResponse} (kept : KeptTelling tells good)
    (telling : Telling tells s) (asked : Asked ctx world s (t, outcome)) :
    ∃ earlier, t.log = earlier ++ [heard outcome] ∧ Telling tells { t with log := earlier } := by
  have once : Telling tells (s.note [.sent (requestOf ctx s)]) := by
    refine ⟨telling.told.snoc fun request same => ?_, kept.sent _ _ _ telling.now⟩
    cases same
    exact telling.now
  have twice (e : ProviderError) :
      Telling tells ((dropConnectors ctx s).note [.sent (requestOf ctx s), .failed e,
        .sent (requestOf ctx (dropConnectors ctx s))]) := by
    have failed : Telling tells ((s.note [.sent (requestOf ctx s)]).note [.failed e]) :=
      ⟨once.told.append rfl, kept.failed _ _ _ once.now⟩
    have split : ((dropConnectors ctx s).note [.sent (requestOf ctx s), .failed e,
        .sent (requestOf ctx (dropConnectors ctx s))]).log =
        ((s.note [.sent (requestOf ctx s)]).note [.failed e]).log ++
          [.sent (requestOf ctx (dropConnectors ctx s))] := by
      simp [RunState.note, dropConnectors]
    constructor
    · rw [split]
      refine failed.told.snoc fun request same => ?_
      cases same
      exact failed.now
    · rw [split]
      exact kept.sent _ _ _ failed.now
  cases asked with
  | answered outcome => exact ⟨_, (List.append_assoc s.log [_] [_]).symm, once⟩
  | failed outcome fatal => exact ⟨_, (List.append_assoc s.log [_] [_]).symm, once⟩
  | @retried e response outcome dropped again =>
    exact ⟨_, (List.append_assoc s.log [_, _, _] [_]).symm, twice e⟩
  | @gaveUp e f outcome dropped again =>
    exact ⟨_, (List.append_assoc s.log [_, _, _] [_]).symm, twice e⟩

theorem Telling.again {response : ProviderResponse} {u : RunState} {earlier : List Event}
    (kept : KeptTelling tells good) (log : t.log = earlier ++ [.received response])
    (telling : Telling tells { t with log := earlier }) (promised : good response)
    (continued : Continued ctx (receive t response) response (true, u)) : Telling tells u := by
  have told : Told tells t.log := by
    rw [log]
    exact telling.told.append rfl
  refine ⟨?_, kept.again ctx t response u earlier log telling.now promised continued⟩
  cases continued with
  | executed _ _ ran _ => exact told.append ran.quiet.1
  | askedForLess | paused => exact told

/-- The responses of an iteration are good. -/
def Promises (good : ProviderResponse → Prop) (world : TurnWorld) : Prop :=
  ∀ response, world.create = .ok response ∨ world.retry = .ok response → good response

theorem asked_good {response : ProviderResponse} (promises : Promises good world)
    (asked : Asked ctx world s (t, .ok response)) : good response := by
  cases asked with
  | answered outcome => exact promises response (.inl outcome)
  | retried outcome dropped again => exact promises response (.inr again)

theorem loop_told (kept : KeptTelling tells good) (ctx : RunContext) (n : Nat)
    (worlds : Nat → TurnWorld) (promises : ∀ i, Promises good (worlds i)) (s : RunState)
    (start : Telling tells s) : Told tells (loop ctx n worlds s).1.log := by
  refine loop_rule ctx
    (I := fun _ worlds s => Telling tells s ∧ ∀ i, Promises good (worlds i))
    (Q := fun s _ => Told tells s.log) (fun _ s between => between.1.told) ?_ ?_ ?_
    ⟨start, promises⟩
  · rintro n worlds s t e ⟨telling, _⟩ asked
    obtain ⟨earlier, log, telling⟩ := telling.asked kept asked
    rw [log]
    exact telling.told.append rfl
  · rintro n worlds s t response u ⟨telling, promises⟩ asked continued
    obtain ⟨earlier, log, telling⟩ := telling.asked kept asked
    exact ⟨telling.again kept log (asked_good (promises 0) asked) continued,
      fun i => promises (i + 1)⟩
  · rintro n worlds s t response u ⟨telling, _⟩ asked continued
    obtain ⟨earlier, log, telling⟩ := telling.asked kept asked
    have same : u.log = t.log := by
      cases continued with
      | gaveUp => rfl
      | answered => rfl
    rw [same, log]
    exact telling.told.append rfl

/-- Every request of a run tells what was sent and received before it. -/
theorem run_told (kept : KeptTelling tells good) (prepared : Prepared) (worlds : Nat → TurnWorld)
    (promises : ∀ i, Promises good (worlds i)) : Told tells (run prepared worlds).log := by
  refine run_log_rule (Q := Told tells) (fun before request after split => ?_)
    (fun ctx => loop_told kept ctx maxIterations worlds promises (startRun ctx) ⟨?_, kept.start ctx⟩)
    (fun log usage told => told.append rfl) prepared
  · simp at split
  · intro before request after split
    simp [startRun] at split

end

end Gomer.Ai
