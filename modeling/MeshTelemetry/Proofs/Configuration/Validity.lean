import MeshTelemetry.Configuration.Basic
import MeshTelemetry.Proofs.Alert.Wording
import MeshTelemetry.Proofs.Json.Parts

/-! Which configurations a service runs with, and what they promise. Sweeps are never further
apart than the span after which a silent node expires, and closer together unless the span is
one second. What is published of an alert names its sender, begins with the mark, and ends in
the ellipsis if it was cut. -/

set_option autoImplicit false

namespace MeshTelemetry

/-! Checks in order -/

/-- A check that fails is the answer; one that does not leaves it to what follows. -/
theorem ite_throw_eq_ok_iff {ε α β : Type} {p : Prop} [Decidable p] {e : ε}
    {next : α → Except ε β} {rest : Except ε β} {b : β} :
    (if p then throw e >>= next else rest) = .ok b ↔ ¬ p ∧ rest = .ok b := by
  by_cases hp : p
  · simp [hp, throw, throwThe, MonadExceptOf.throw, bind, Except.bind]
  · simp [hp]

/-! The policy for silent nodes -/

namespace ExpirySettings

variable {s : ExpirySettings}

def IsOrdered (s : ExpirySettings) : Prop :=
  ∀ n, s.intervalSeconds = some n → s.ttlSeconds ≠ 0 → n < s.ttlSeconds

theorem ttl_policy (s : ExpirySettings) : s.policy.ttl = s.ttlSeconds * nanosPerSecond := rfl

theorem interval_policy_of_none (h : s.intervalSeconds = none) :
    s.policy.interval = max (s.ttlSeconds * nanosPerSecond / 6) nanosPerSecond := by
  have hpolicy : s.policy.interval = max s.interval nanosPerSecond := rfl
  have hsixth : s.interval = max (s.ttl / 6) nanosPerSecond := by
    rw [interval, h, Option.map_none, Option.getD_none]
    rfl
  rw [hpolicy, hsixth, Nat.max_assoc, Nat.max_self, ttl]

theorem interval_policy_of_some {n : Nat} (h : s.intervalSeconds = some n) :
    s.policy.interval = max (n * nanosPerSecond) nanosPerSecond := by
  have hpolicy : s.policy.interval = max s.interval nanosPerSecond := rfl
  rw [hpolicy, interval, h, Option.map_some, Option.getD_some]

/-- A sixth of a span is shorter than the span and a given interval is shorter by a second, so
only the least interval can be as long as the span. -/
theorem interval_policy (h : s.IsOrdered) (httl : s.ttlSeconds ≠ 0) :
    nanosPerSecond ≤ s.policy.interval ∧ s.policy.interval ≤ s.policy.ttl ∧
      (s.policy.interval < s.policy.ttl ↔ s.ttlSeconds ≠ 1) := by
  have hsecond : nanosPerSecond = 1000000000 := rfl
  rw [ttl_policy, hsecond]
  cases hgiven : s.intervalSeconds with
  | none =>
    rw [interval_policy_of_none hgiven, hsecond]
    omega
  | some n =>
    have hshorter := h n hgiven httl
    rw [interval_policy_of_some hgiven, hsecond]
    omega

end ExpirySettings

/-! Validity -/

namespace Configuration

structure IsRunnable (c : Configuration) : Prop where
  host : Text.isBlankText c.link.host = false
  port : c.link.port ≠ 0
  expiry : c.expiry.IsOrdered
  saveInterval : c.state.saveIntervalSeconds ≠ 0
  textLimit : leastTextLimit ≤ c.alerts.textLimit
  sender : c.alerts.sender ≠ some 0
  listen : ∃ a, SocketAddress.ofText? c.listen = some a

theorem checkInterval_eq_ok_iff (s : ExpirySettings) : checkInterval s = .ok () ↔ s.IsOrdered := by
  unfold checkInterval ExpirySettings.IsOrdered
  cases s.intervalSeconds with
  | none => simp
  | some interval =>
    dsimp only
    split
    · simp
      omega
    · simp
      omega

theorem listenAddress_eq_ok_iff (c : Configuration) (a : SocketAddress) :
    c.listenAddress = .ok a ↔ SocketAddress.ofText? c.listen = some a := by
  unfold listenAddress
  cases SocketAddress.ofText? c.listen <;> simp

theorem validate_eq_ok_iff (c : Configuration) : c.validate = .ok () ↔ c.IsRunnable := by
  simp only [validate, ite_throw_eq_ok_iff, Json.bind_eq_ok_iff, listenAddress_eq_ok_iff]
  constructor
  · rintro ⟨hhost, hport, ⟨⟩, hexpiry, hsave, hlimit, hsender, a, hlisten, -⟩
    exact ⟨eq_false_of_ne_true hhost, hport, (checkInterval_eq_ok_iff _).mp hexpiry, hsave,
      Nat.le_of_not_lt hlimit, hsender, a, hlisten⟩
  · rintro ⟨hhost, hport, hexpiry, hsave, hlimit, hsender, a, hlisten⟩
    exact ⟨ne_true_of_eq_false hhost, hport, (), (checkInterval_eq_ok_iff _).mpr hexpiry, hsave,
      Nat.not_lt.mpr hlimit, hsender, a, hlisten, rfl⟩

theorem isRunnable_default : IsRunnable {} where
  host := by decide +kernel
  port := by decide
  expiry := nofun
  saveInterval := by decide
  textLimit := by decide +kernel
  sender := nofun
  listen := ⟨.v4 [0, 0, 0, 0] 9464, by decide +kernel⟩

/-- With a configuration that was checked, there is time between sweeps, and never more than the
span after which a silent node expires. There is less than that exactly if the span is not one
second: whether the interval is then left out or given as zero, it is raised to the least one,
which is as long as the span. -/
theorem interval_lt_ttl_iff (c : Configuration) (hvalid : c.validate = .ok ())
    (httl : c.expiry.ttlSeconds ≠ 0) :
    let p := c.expiry.policy
    p.ttl = c.expiry.ttlSeconds * 1000000000 ∧ 0 < p.interval ∧ p.interval ≤ p.ttl ∧
      (p.interval < p.ttl ↔ c.expiry.ttlSeconds ≠ 1) := by
  intro p
  have hrunnable := (validate_eq_ok_iff c).mp hvalid
  obtain ⟨hleast, hle, hlt⟩ := ExpirySettings.interval_policy hrunnable.expiry httl
  have hsecond : 0 < nanosPerSecond := by decide
  exact ⟨rfl, Nat.lt_of_lt_of_le hsecond hleast, hle, hlt⟩

def oneSecond : Configuration := { expiry := { ttlSeconds := 1 } }

/-- It passes and its sweeps are as far apart as the span, although the same policy is refused
when the interval is given. -/
theorem interval_lt_ttl_iff_oneSecond :
    oneSecond.validate = .ok () ∧
      ¬ oneSecond.expiry.policy.interval < oneSecond.expiry.policy.ttl ∧
      ExpirySettings.policy ⟨1, some 1⟩ = oneSecond.expiry.policy ∧
      validate { oneSecond with expiry := ⟨1, some 1⟩ } = .error (.intervalNotShorter 1 1) := by
  have hhost : Text.isBlankText oneSecond.link.host = false := isRunnable_default.host
  have hvalid : oneSecond.validate = .ok () :=
    (validate_eq_ok_iff _).mpr { isRunnable_default with expiry := nofun }
  obtain ⟨_, _, _, hlt⟩ := interval_lt_ttl_iff oneSecond hvalid (by decide)
  refine ⟨hvalid, fun h => hlt.mp h rfl, by decide +kernel, ?_⟩
  simp only [validate, hhost]
  rfl

/-- Under a configuration that was checked, whatever is published of an alert can be told as an
alert and traced to its sender. It names a sender other than zero and begins with the mark. The
message follows in full if the limit leaves room for it, and else a first part of it and the
ellipsis, in as many characters as the limit allows. -/
theorem published_recognisable {σ : Type} (c : Configuration) (hvalid : c.validate = .ok ())
    (s : DispatchSettings) (hs : c.alerts.dispatch = some s) (publisher : Option (Publish σ))
    (bus : σ) (a : Alert) :
    let limit := c.alerts.textLimit
    let whole := "[ALERT] " ++ a.message
    ∀ p ∈ s.published publisher bus a, ∃ d, Downlink.ofPacket p = .ok d ∧
      d.sender ≠ 0 ∧ c.alerts.sender = some d.sender ∧ d.text.length ≤ limit ∧
      (∃ rest, d.text = "[ALERT] " ++ rest) ∧
      (whole.length ≤ limit → d.text = whole) ∧
      (limit < whole.length → d.text.length = limit ∧
        ∃ kept rest, a.message = kept ++ rest ∧ d.text = "[ALERT] " ++ kept ++ "...") := by
  intro limit whole p hp
  have hrunnable := (validate_eq_ok_iff c).mp hvalid
  obtain ⟨sender, hsender, rfl⟩ := Option.map_eq_some_iff.mp hs
  obtain ⟨r, _, hread⟩ := DispatchSettings.ofPacket_of_published _ publisher bus a hp
  have hnonzero : sender ≠ 0 := by
    rintro rfl
    exact hrunnable.sender hsender
  have hlength : (Text.truncate limit whole).length = min limit whole.length :=
    Text.length_truncate limit whole
  refine ⟨_, hread, hnonzero, hsender, ?_, ?_, ?_, fun hlong => ⟨?_, ?_⟩⟩
  · exact Nat.le_trans (Nat.le_of_eq hlength) (Nat.min_le_left _ _)
  · exact ⟨_, truncate_alertMark hrunnable.textLimit a.message⟩
  · exact Text.truncate_of_le
  · exact hlength.trans (Nat.min_eq_left (Nat.le_of_lt hlong))
  · exact (leastTextLimit_le_iff limit).mp hrunnable.textLimit a.message hlong

def tightLimit : Configuration := { alerts := { sender := some 4660, textLimit := 12 } }

def drought : Alert := { severity := "info", message := "Öl leer", timestamp := 0 }

/-- One character of the message is left between the mark and the ellipsis. -/
theorem published_recognisable_tightLimit :
    ∃ s, tightLimit.alerts.dispatch = some s ∧
      ∃ p ∈ s.published (some SimulatedBus.publish) {} drought, ∃ d, Downlink.ofPacket p = .ok d ∧
        d.sender = 4660 ∧ d.text.length = 12 ∧ d.text = "[ALERT] Ö..." := by
  have hvalid : tightLimit.validate = .ok () := (validate_eq_ok_iff _).mpr
    { isRunnable_default with textLimit := by decide +kernel, sender := by decide }
  let s : DispatchSettings := { sender := 4660, textLimit := 12 }
  have hs : tightLimit.alerts.dispatch = some s := by decide +kernel
  let p : Packet := (s.downlink drought everyNode).toPacket (s.topic (s.channelOf drought))
  have hpublished : p ∈ s.published (some SimulatedBus.publish) {} drought :=
    List.mem_singleton.mpr rfl
  obtain ⟨d, hread, _, hsender, _, _, _, hlong⟩ := published_recognisable tightLimit hvalid s hs
    (some SimulatedBus.publish) {} drought p hpublished
  obtain ⟨hlength, _⟩ := hlong (by decide +kernel)
  have htext : d.text = "[ALERT] Ö..." := by
    rw [Except.ok.inj (hread.symm.trans (Downlink.ofPacket_toPacket _ _))]
    decide +kernel
  exact ⟨s, hs, p, hpublished, d, hread, (Option.some.inj hsender).symm, hlength, htext⟩

end Configuration
end MeshTelemetry
