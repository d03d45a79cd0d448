import MeshTelemetry.Proofs.Exporter.LastWrite

/-! What is refused leaves no trace. A message that is rejected or ignored and a file that
cannot be restored can be left out of a run: the exporter ends up the same, what nodes said
of themselves and when they were heard included, and all other calls answer as they did. -/

set_option autoImplicit false

namespace MeshTelemetry.Exporter

/-- Whether an answer says that nothing was taken in: the message was rejected or ignored, or
the file could not be restored. -/
def Answer.isRefusal : Answer → Bool
  | .handled (.ok (.recorded _)) => false
  | .handled (.ok (.ignored _)) => true
  | .handled (.error _) => true
  | .swept _ => false
  | .loaded (.ok _) => false
  | .loaded (.error _) => true

def accepted (e : Exporter) (calls : List Call) : List Call :=
  ((calls.zip (e.answers calls)).filter fun c => !c.2.isRefusal).map Prod.fst

theorem accepted_cons (e : Exporter) (c : Call) (cs : List Call) :
    e.accepted (c :: cs) =
      if (e.answer c).isRefusal then (e.call c).accepted cs
      else c :: (e.call c).accepted cs := by
  rw [accepted, answers, List.zip_cons_cons, List.filter_cons]
  cases (e.answer c).isRefusal <;> rfl

theorem accepted_sublist (e : Exporter) (calls : List Call) :
    (e.accepted calls).Sublist calls := by
  induction calls generalizing e with
  | nil => exact List.Sublist.refl _
  | cons c cs ih =>
    rw [accepted_cons]
    split
    · exact (ih _).cons c
    · exact (ih _).cons_cons c

theorem not_recorded_of_isRefusal {outcome : Except Rejection Outcome}
    (h : (Answer.handled outcome).isRefusal = true) (r : Record) :
    outcome ≠ .ok (.recorded r) := by
  rintro rfl
  cases h

theorem call_of_isRefusal {e : Exporter} {c : Call} (h : (e.answer c).isRefusal = true) :
    e.call c = e := by
  cases c with
  | handle now topic payload =>
    rcases handle_cases e now topic payload with ⟨r, _, hr⟩ | ⟨_, hsame⟩
    · have hrecorded : (e.handle now topic payload).2 = .ok (.recorded r) := by rw [hr]
      exact absurd hrecorded (not_recorded_of_isRefusal h r)
    · exact hsame
  | sweep ttl now => cases h
  | load files path instant =>
    rw [call]
    rw [answer] at h
    cases hload : e.load files path instant with
    | error error => rfl
    | ok restored =>
      rw [hload] at h
      cases h

/-- What is refused leaves no trace: to make only the accepted calls of a run brings the
exporter to the same state, and each of them answers as it did among the refused ones. -/
theorem callAll_accepted (filters : List String) (calls : List Call) :
    (accepted { filters } calls).Sublist calls ∧
    callAll { filters } (accepted { filters } calls) = callAll { filters } calls ∧
    answers { filters } (accepted { filters } calls) =
      (answers { filters } calls).filter fun a => !a.isRefusal := by
  refine ⟨accepted_sublist _ calls, ?_⟩
  generalize ({ filters } : Exporter) = e
  -- A refused call leaves the state, so the rest of the run starts where it did without it.
  induction calls generalizing e with
  | nil => exact ⟨rfl, rfl⟩
  | cons c cs ih =>
    obtain ⟨hstate, hanswers⟩ := ih (e.call c)
    rw [accepted_cons, answers, List.filter_cons]
    by_cases hrefused : (e.answer c).isRefusal = true
    · have hsame := call_of_isRefusal hrefused
      rw [if_pos hrefused, hrefused, callAll_cons]
      rw [hsame] at hstate hanswers ⊢
      exact ⟨hstate, hanswers⟩
    · rw [if_neg hrefused, Bool.eq_false_iff.mpr hrefused]
      exact ⟨hstate, congrArg (e.answer c :: ·) hanswers⟩

end MeshTelemetry.Exporter
