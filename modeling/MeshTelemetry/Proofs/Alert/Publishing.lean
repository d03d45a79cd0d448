import MeshTelemetry.Alert.Dispatch

/-! What a transport took. Beside any transport a log can be kept of the packets that it takes;
keeping it changes nothing, and what it says of an alert is a part of the alert's packets, from
the first on, and all of them exactly if the alert was delivered. -/

set_option autoImplicit false

namespace MeshTelemetry

variable {σ : Type}

namespace Publish

def logged (publish : Publish σ) : Publish (σ × List Packet) := fun state p =>
  match publish state.1 p with
  | (s, .ok ()) => ((s, state.2 ++ [p]), .ok ())
  | (s, .error e) => ((s, state.2), .error e)

/-- The packets that are taken of some that are published in order. -/
def taken (publish : Publish σ) (s : σ) : List Packet → List Packet
  | [] => []
  | p :: ps =>
    match publish s p with
    | (s, .ok ()) => p :: publish.taken s ps
    | (_, .error _) => []

variable (publish : Publish σ)

/-- With a log, publishing comes to the same, and the log grows by what is taken. -/
theorem all_logged (s : σ) (log ps : List Packet) :
    publish.logged.all (s, log) ps =
      (((publish.all s ps).1, log ++ publish.taken s ps), (publish.all s ps).2) := by
  induction ps generalizing s log with
  | nil => rw [all, all, taken, List.append_nil]
  | cons p ps ih =>
    rw [all, all, taken, logged]
    obtain ⟨s', result⟩ := publish s p
    cases result with
    | error e => simp
    | ok u => simp [ih]

theorem taken_prefix (s : σ) (ps : List Packet) : publish.taken s ps <+: ps := by
  induction ps generalizing s with
  | nil => exact List.prefix_refl []
  | cons p ps ih =>
    rw [taken]
    obtain ⟨s', result⟩ := publish s p
    cases result with
    | error e => exact List.nil_prefix
    | ok u => exact (List.prefix_cons_inj p).mpr (ih s')

theorem all_ok_iff (s : σ) (ps : List Packet) :
    (publish.all s ps).2 = .ok () ↔ publish.taken s ps = ps := by
  induction ps generalizing s with
  | nil => simp [all, taken]
  | cons p ps ih =>
    rw [all, taken]
    obtain ⟨s', result⟩ := publish s p
    cases result with
    | error e => simp
    | ok u => simpa using ih s'

end Publish

namespace DispatchSettings

variable (s : DispatchSettings) (publisher : Option (Publish σ)) (bus : σ) (a : Alert)

/-- The packets that the transport takes of an alert. -/
def published : List Packet := (s.send (publisher.map Publish.logged) (bus, []) a).1.2

/-- With a log, an alert is delivered the same, and the log grows by what is published. -/
theorem send_logged (log : List Packet) :
    s.send (publisher.map Publish.logged) (bus, log) a =
      (((s.send publisher bus a).1, log ++ s.published publisher bus a),
        (s.send publisher bus a).2) := by
  unfold published send
  cases publisher with
  | none => simp
  | some publish =>
    simp only [Option.map_some]
    split
    · simp
    · simp only [Publish.all_logged, List.nil_append]

theorem published_prefix : s.published publisher bus a <+: s.packets a := by
  unfold published send
  cases publisher with
  | none => exact List.nil_prefix
  | some publish =>
    simp only [Option.map_some]
    split
    · exact List.nil_prefix
    · simp only [Publish.all_logged, List.nil_append]
      exact publish.taken_prefix bus _

theorem exists_recipient_of_published {p : Packet} (h : p ∈ s.published publisher bus a) :
    ∃ r ∈ s.recipients a, p = (s.downlink a r).toPacket (s.topic (s.channelOf a)) := by
  obtain ⟨r, hr, hp⟩ := List.mem_map.mp ((s.published_prefix publisher bus a).mem h)
  exact ⟨r, hr, hp.symm⟩

theorem isOk_send_iff :
    (s.send publisher bus a).2.isOk = true ↔
      publisher ≠ none ∧ s.recipients a ≠ [] ∧ s.published publisher bus a = s.packets a := by
  unfold published send
  cases publisher with
  | none => simp [Except.isOk, Except.toBool]
  | some publish =>
    simp only [Option.map_some]
    split
    · rename_i hnone
      simp [Except.isOk, Except.toBool, List.isEmpty_iff.mp hnone]
    · rename_i hsome
      have hrecipients : s.recipients a ≠ [] := by simpa using hsome
      simp only [Publish.all_logged, List.nil_append, ← publish.all_ok_iff]
      cases (publish.all bus (s.packets a)).2 with
      | ok taken => exact iff_of_true rfl ⟨nofun, hrecipients, rfl⟩
      | error e => exact iff_of_false nofun fun ⟨_, _, htaken⟩ => nomatch htaken

end DispatchSettings
end MeshTelemetry
