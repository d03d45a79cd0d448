import MeshTelemetry.Proofs.Alert.Downlinks
import MeshTelemetry.Service.Bench

/-! Delivery of an alert. A transport that takes packets one behind the other has, when it
refuses one, taken exactly those before it; so an alert reaches its recipients in their order,
all of them or those before the first refusal. -/

set_option autoImplicit false

namespace MeshTelemetry

theorem none_or_first {ε : Type} (f : Nat → Option ε) (n : Nat) :
    (∀ i < n, f i = none) ∨ ∃ i e, f i = some e ∧ ∀ j < i, f j = none := by
  induction n with
  | zero => exact .inl nofun
  | succ n ih =>
    rcases ih with hnone | hfirst
    · cases hn : f n with
      | some e => exact .inr ⟨n, e, hn, hnone⟩
      | none =>
        refine .inl fun i hi => ?_
        rcases Nat.lt_succ_iff_lt_or_eq.mp hi with hi | rfl
        · exact hnone i hi
        · exact hn
    · exact .inr hfirst

/-! Publishing in order -/

namespace Publish

/-- A transport on which the packets that were taken stand behind those that it had, and
which a refusal does not change. -/
structure Keeps {σ : Type} (publish : Publish σ) (adding : σ → List Packet → σ) : Prop where
  nil : ∀ s, adding s [] = s
  append : ∀ s ps qs, adding (adding s ps) qs = adding s (ps ++ qs)
  taken : ∀ s s' p, publish s p = (s', .ok ()) → s' = adding s [p]
  refused : ∀ s s' p e, publish s p = (s', .error e) → s' = s

/-- The refusal of the packet at a place, once those before it were taken. -/
def refusalAt? {σ : Type} (publish : Publish σ) (adding : σ → List Packet → σ) (s : σ)
    (ps : List Packet) (i : Nat) : Option NetworkError :=
  ps[i]?.bind fun p =>
    match (publish (adding s (ps.take i)) p).2 with
    | .ok _ => none
    | .error e => some e

namespace Keeps

variable {σ : Type} {publish : Publish σ} {adding : σ → List Packet → σ}

theorem refusalAt?_zero (h : Keeps publish adding) (s : σ) (p : Packet) (ps : List Packet) :
    publish.refusalAt? adding s (p :: ps) 0 =
      match (publish s p).2 with
      | .ok _ => none
      | .error e => some e := by
  rw [refusalAt?, List.getElem?_cons_zero, Option.bind_some, List.take_zero, h.nil]

theorem refusalAt?_succ (h : Keeps publish adding) (s : σ) (p : Packet) (ps : List Packet)
    (i : Nat) :
    publish.refusalAt? adding s (p :: ps) (i + 1) =
      publish.refusalAt? adding (adding s [p]) ps i := by
  rw [refusalAt?, refusalAt?, List.getElem?_cons_succ, List.take_succ_cons, h.append,
    List.singleton_append]

theorem all_cons (h : Keeps publish adding) {s : σ} {p : Packet} {ps : List Packet}
    (taken : publish.refusalAt? adding s (p :: ps) 0 = none) :
    publish.all s (p :: ps) = publish.all (adding s [p]) ps := by
  rw [h.refusalAt?_zero] at taken
  rw [all]
  rcases hp : publish s p with ⟨s', result⟩
  rw [hp] at taken
  cases result with
  | ok u => rw [h.taken s s' p hp]
  | error e => cases taken

theorem all_of_taken (h : Keeps publish adding) {ps : List Packet} {s : σ}
    (taken : ∀ i < ps.length, publish.refusalAt? adding s ps i = none) :
    publish.all s ps = (adding s ps, .ok ()) := by
  induction ps generalizing s with
  | nil => rw [all, h.nil]
  | cons p ps ih =>
    rw [h.all_cons (taken 0 (Nat.succ_pos _)), ih, h.append, List.singleton_append]
    intro i hi
    rw [← h.refusalAt?_succ]
    exact taken (i + 1) (Nat.succ_lt_succ hi)

theorem all_of_refused (h : Keeps publish adding) {ps : List Packet} {s : σ} {i : Nat}
    {e : NetworkError} (refused : publish.refusalAt? adding s ps i = some e)
    (taken : ∀ j < i, publish.refusalAt? adding s ps j = none) :
    publish.all s ps = (adding s (ps.take i), .error e) := by
  induction ps generalizing s i with
  | nil => cases refused
  | cons p ps ih =>
    cases i with
    | zero =>
      rw [h.refusalAt?_zero] at refused
      rw [List.take_zero, h.nil, all]
      rcases hp : publish s p with ⟨s', result⟩
      rw [hp] at refused
      cases result with
      | ok u => cases refused
      | error e' =>
        cases refused
        rw [h.refused s s' p _ hp]
    | succ i =>
      rw [h.refusalAt?_succ] at refused
      rw [h.all_cons (taken 0 (Nat.succ_pos _)), ih refused, h.append, List.singleton_append,
        List.take_succ_cons]
      intro j hj
      rw [← h.refusalAt?_succ]
      exact taken (j + 1) (Nat.succ_lt_succ hj)

/-- A transport that is a part of something larger keeps its packets there. -/
theorem within {τ : Type} {publish : σ → Publish τ} {adding : τ → List Packet → τ} (get : σ → τ)
    (set : σ → τ → σ) (h : ∀ s, (publish s).Keeps adding) (hsame : ∀ s, set s (get s) = s)
    (hget : ∀ s t, get (set s t) = t) (hset : ∀ s t u, set (set s t) u = set s u) :
    Publish.Keeps (fun s p => (set s (publish s (get s) p).1, (publish s (get s) p).2))
      fun s ps => set s (adding (get s) ps) where
  nil s := by rw [(h s).nil, hsame]
  append s ps qs := by rw [hget, hset, (h s).append]
  taken s s' p hp := by
    obtain ⟨rfl, htaken⟩ := Prod.mk.inj hp
    exact congrArg (set s) ((h s).taken _ _ p (Prod.ext rfl htaken))
  refused s s' p e hp := by
    obtain ⟨rfl, hrefused⟩ := Prod.mk.inj hp
    exact (congrArg (set s) ((h s).refused _ _ p e (Prod.ext rfl hrefused))).trans (hsame s)

end Keeps
end Publish

/-! The bench -/

def AlertRoute.add : AlertRoute → Bench → List Packet → Bench
  | .nowhere, b, _ => b
  | .simulated, b, ps => { b with bus := { b.bus with published := b.bus.published ++ ps } }
  | .link, b, ps => { b with outbox := { b.outbox with waiting := b.outbox.waiting ++ ps } }

theorem SimulatedBus.keeps_publish :
    publish.Keeps fun bus ps => { bus with published := bus.published ++ ps } where
  nil bus := by rw [List.append_nil]
  append bus ps qs := by rw [List.append_assoc]
  taken bus bus' p h := by
    unfold publish at h
    split at h
    · cases h
    · split at h
      · cases h
      · exact (congrArg Prod.fst h).symm
  refused bus bus' p e h := by
    unfold publish at h
    split at h
    · exact (congrArg Prod.fst h).symm
    · split at h
      · exact (congrArg Prod.fst h).symm
      · cases h

theorem Outbox.keeps_publish (status : LinkStatus) :
    (publish status).Keeps fun box ps => { box with waiting := box.waiting ++ ps } where
  nil box := by rw [List.append_nil]
  append box ps qs := by rw [List.append_assoc]
  taken box box' p h := by
    unfold publish push at h
    split at h
    · split at h
      · cases h
      · split at h
        · cases h
        · exact (congrArg Prod.fst h).symm
    · cases h
  refused box box' p e h := by
    unfold publish push at h
    split at h
    · split at h
      · exact (congrArg Prod.fst h).symm
      · split at h
        · exact (congrArg Prod.fst h).symm
        · cases h
    · exact (congrArg Prod.fst h).symm

namespace Bench

theorem keeps_publisher {b : Bench} {publish : Publish Bench} (h : b.publisher = some publish) :
    publish.Keeps b.route.add := by
  unfold publisher at h
  split at h <;> rename_i hroute
  · cases h
  · cases h
    rw [hroute]
    exact .within Bench.bus (fun b bus => { b with bus }) (fun _ => SimulatedBus.keeps_publish)
      (fun _ => rfl) (fun _ _ => rfl) fun _ _ _ => rfl
  · cases h
    rw [hroute]
    exact .within Bench.outbox (fun b outbox => { b with outbox })
      (fun b => Outbox.keeps_publish b.health.link) (fun _ => rfl) (fun _ _ => rfl) fun _ _ _ => rfl

def refusalAt? (b : Bench) (ps : List Packet) (i : Nat) : Option NetworkError :=
  b.publisher.bind fun publish => publish.refusalAt? b.route.add b ps i

variable {b : Bench} {ps : List Packet} {i : Nat}

/-- The simulated bus refuses everything while it is offline, and else the one packet that it
was told to refuse. -/
theorem refusalAt?_simulated (h : b.route = .simulated) (hi : i < ps.length) :
    b.refusalAt? ps i =
      if b.bus.available = false then some (.unavailable "mock bus offline")
      else if b.bus.refuseAt = some (b.bus.published.length + i) then
        some (.refused ps[i].topic "refused by mock")
      else none := by
  have hlength : (b.bus.published ++ ps.take i).length = b.bus.published.length + i := by
    rw [List.length_append, List.length_take_of_le (Nat.le_of_lt hi)]
  rw [refusalAt?, publisher, h]
  dsimp only
  rw [Option.bind_some, Publish.refusalAt?, List.getElem?_eq_getElem hi, Option.bind_some,
    AlertRoute.add]
  dsimp only
  rw [SimulatedBus.publish, hlength]
  cases b.bus.available with
  | false => rfl
  | true =>
    by_cases hrefuse : b.bus.refuseAt = some (b.bus.published.length + i)
    · simp [hrefuse]
    · simp [hrefuse]

/-! One alert -/

variable {a : Alert}

theorem sendAlert_of_nowhere (h : b.publisher = none) :
    b.sendAlert a = (b, .error (.network (.unavailable "no publisher attached"))) := by
  unfold sendAlert DispatchSettings.send
  rw [h]

theorem sendAlert_of_no_recipients (h : b.publisher ≠ none) (hnone : b.dispatch.recipients a = []) :
    b.sendAlert a = (b, .error (.rejected .noTargets)) := by
  obtain ⟨publish, hpublish⟩ := Option.ne_none_iff_exists'.mp h
  unfold sendAlert DispatchSettings.send
  rw [hpublish, hnone]
  rfl

theorem sendAlert_of_publisher {publish : Publish Bench} (h : b.publisher = some publish)
    (hsome : b.dispatch.recipients a ≠ []) :
    b.sendAlert a =
      ((publish.all b (b.dispatch.packets a)).1,
        ((publish.all b (b.dispatch.packets a)).2.map fun _ =>
          (b.dispatch.packets a).length).mapError .network) := by
  have hempty : ¬ (b.dispatch.recipients a).isEmpty = true := by simpa using hsome
  unfold sendAlert DispatchSettings.send
  rw [h]
  dsimp only
  rw [if_neg hempty]

theorem sendAlert_of_taken (h : b.publisher ≠ none) (hsome : b.dispatch.recipients a ≠ [])
    (taken : ∀ i < (b.dispatch.packets a).length,
      b.refusalAt? (b.dispatch.packets a) i = none) :
    b.sendAlert a =
      (b.route.add b (b.dispatch.packets a), .ok (b.dispatch.packets a).length) := by
  obtain ⟨publish, hpublish⟩ := Option.ne_none_iff_exists'.mp h
  simp only [refusalAt?, hpublish, Option.bind_some] at taken
  rw [sendAlert_of_publisher hpublish hsome, (keeps_publisher hpublish).all_of_taken taken]
  rfl

theorem sendAlert_of_refused {i : Nat} {e : NetworkError}
    (refused : b.refusalAt? (b.dispatch.packets a) i = some e)
    (taken : ∀ j < i, b.refusalAt? (b.dispatch.packets a) j = none) :
    b.sendAlert a =
      (b.route.add b ((b.dispatch.packets a).take i), .error (.network e)) := by
  obtain ⟨publish, hpublish, hrefused⟩ := Option.bind_eq_some_iff.mp refused
  have hsome : b.dispatch.recipients a ≠ [] := by
    intro hnone
    rw [DispatchSettings.packets, hnone] at hrefused
    cases hrefused
  simp only [refusalAt?, hpublish, Option.bind_some] at taken
  rw [sendAlert_of_publisher hpublish hsome,
    (keeps_publisher hpublish).all_of_refused hrefused taken]
  rfl

/-- An alert is answered with a number exactly if there is a transport, there are recipients,
and all their packets were taken; the number is theirs. -/
theorem sendAlert_ok_iff (k : Nat) :
    (b.sendAlert a).2 = .ok k ↔
      b.publisher ≠ none ∧ b.dispatch.recipients a ≠ [] ∧
        k = (b.dispatch.packets a).length ∧
        ∀ i < (b.dispatch.packets a).length, b.refusalAt? (b.dispatch.packets a) i = none := by
  constructor
  · intro hk
    by_cases hpublisher : b.publisher = none
    · rw [sendAlert_of_nowhere hpublisher] at hk
      cases hk
    by_cases hnone : b.dispatch.recipients a = []
    · rw [sendAlert_of_no_recipients hpublisher hnone] at hk
      cases hk
    rcases none_or_first (b.refusalAt? (b.dispatch.packets a)) (b.dispatch.packets a).length with
      htaken | ⟨i, e, hrefused, htaken⟩
    · rw [sendAlert_of_taken hpublisher hnone htaken] at hk
      exact ⟨hpublisher, hnone, (Except.ok.inj hk).symm, htaken⟩
    · rw [sendAlert_of_refused hrefused htaken] at hk
      cases hk
  · rintro ⟨hpublisher, hsome, rfl, htaken⟩
    rw [sendAlert_of_taken hpublisher hsome htaken]

/-- An alert reaches an exact prefix of its recipients. Its packets are the downlinks for
them, in their order, on the topic of its channel; the transport takes all of them and the
answer is their number, or it refuses one, has taken those before it and nothing after, and
the answer is its refusal. Without a transport or recipients nothing is published. -/
theorem sendAlert_delivers (b : Bench) (a : Alert) :
    let s := b.dispatch
    let recipients : List UInt32 :=
      match a.mode.getD s.mode with
      | .broadcast => [4294967295]
      | .direct => if a.targets = [] then s.targets else a.targets
    let channel := (a.channel.filter fun c => !Text.isBlankText c).getD s.channel
    let text := Text.truncate s.textLimit ("[ALERT] " ++ a.message)
    let packets := s.packets a
    (∃ root digits, IsTrimmed s.topicRoot root ∧ IsHexOf s.sender digits ∧
      ∀ p ∈ packets,
        p.topic = root ++ "/2/json/" ++ channel ++ "/!" ++ String.ofList digits) ∧
    packets.map Downlink.ofPacket = recipients.map (fun r => .ok ⟨"text", text, s.sender, r⟩) ∧
    packets.map (fun p => Envelope.decodePayload p.payload) = recipients.map (fun r =>
      some (.object [("from", .ofNat s.sender.toNat), ("payload", .string text),
        ("to", .ofNat r.toNat), ("type", .string "text")])) ∧
    (∀ k, (b.sendAlert a).2 = .ok k ↔
      b.publisher ≠ none ∧ recipients ≠ [] ∧ k = recipients.length ∧
        ∀ i < recipients.length, b.refusalAt? packets i = none) ∧
    (∀ k, (b.sendAlert a).2 = .ok k → (b.sendAlert a).1 = b.route.add b packets) ∧
    (∀ i e, b.refusalAt? packets i = some e → (∀ j < i, b.refusalAt? packets j = none) →
      b.sendAlert a = (b.route.add b (packets.take i), .error (.network e))) ∧
    (b.publisher = none →
      b.sendAlert a = (b, .error (.network (.unavailable "no publisher attached")))) ∧
    (b.publisher ≠ none → recipients = [] →
      b.sendAlert a = (b, .error (.rejected .noTargets))) := by
  intro s recipients channel text packets
  have hrecipients : s.recipients a = recipients := by
    simp only [DispatchSettings.recipients, DispatchSettings.modeOf, recipients,
      List.isEmpty_iff]
    rfl
  have hpackets : packets = recipients.map fun r =>
      (Downlink.mk "text" text s.sender r).toPacket (s.topic channel) := by
    rw [← hrecipients]
    rfl
  have hlength : packets.length = recipients.length := by rw [hpackets, List.length_map]
  refine ⟨⟨s.trimmedRoot, _, s.isTrimmed_trimmedRoot, isHexOf_padded s.sender, ?_⟩,
    ?_, ?_, ?_, ?_, ?_, ?_, ?_⟩
  · intro p hp
    rw [hpackets] at hp
    obtain ⟨r, _, rfl⟩ := List.mem_map.mp hp
    rfl
  · rw [hpackets, List.map_map]
    exact List.map_congr_left fun r _ => Downlink.ofPacket_toPacket _ _
  · rw [hpackets, List.map_map]
    exact List.map_congr_left fun r _ => Downlink.decodePayload_toPacket _ _
  · intro k
    rw [sendAlert_ok_iff, hrecipients, hlength]
  · intro k hk
    obtain ⟨hpublisher, hsome, _, htaken⟩ := (sendAlert_ok_iff k).mp hk
    rw [sendAlert_of_taken hpublisher hsome htaken]
  · intro i e hrefused htaken
    exact sendAlert_of_refused hrefused htaken
  · exact sendAlert_of_nowhere
  · intro hpublisher hnone
    exact sendAlert_of_no_recipients hpublisher (hrecipients.trans hnone)

/-- An alert for nodes 1, 2 and 3, and a bus that refuses the second packet. -/
def threeTargets : Alert :=
  { severity := "warning", message := "low battery", mode := some .direct, targets := [1, 2, 3],
    timestamp := 0 }

def refusingBench : Bench := { bus := { refuseAt := some 1, inbox := some [] } }

/-- The first target is served, the refusal is the answer, and nothing is sent after it. -/
theorem sendAlert_threeTargets :
    (refusingBench.sendAlert threeTargets).1.bus.published.map
        (fun p => (Downlink.ofPacket p).toOption) =
      [some ⟨"text", "[ALERT] low battery", 0, 1⟩] ∧
    (refusingBench.sendAlert threeTargets).2 =
      .error (.network (.refused "msh/US/2/json/LongFast/!00000000" "refused by mock")) := by
  obtain ⟨_, hread, _, _, _, hdelivered, _⟩ := sendAlert_delivers refusingBench threeTargets
  have hrefused : refusingBench.refusalAt? (refusingBench.dispatch.packets threeTargets) 1 =
      some (.refused "msh/US/2/json/LongFast/!00000000" "refused by mock") := by
    rw [refusalAt?_simulated rfl (by decide)]
    decide +kernel
  have htaken : ∀ j < 1,
      refusingBench.refusalAt? (refusingBench.dispatch.packets threeTargets) j = none := by
    intro j hj
    rw [Nat.lt_one_iff.mp hj, refusalAt?_simulated rfl (by decide)]
    rfl
  rw [hdelivered 1 _ hrefused htaken]
  refine ⟨?_, rfl⟩
  have hsent : (refusingBench.route.add refusingBench
      ((refusingBench.dispatch.packets threeTargets).take 1)).bus.published.map
        Downlink.ofPacket = [.ok ⟨"text", "[ALERT] low battery", 0, 1⟩] := by
    show ((refusingBench.dispatch.packets threeTargets).take 1).map Downlink.ofPacket = _
    rw [List.map_take, hread]
    rfl
  have hoption := congrArg (List.map Except.toOption) hsent
  rw [List.map_map] at hoption
  exact hoption

end Bench
end MeshTelemetry
