import MeshTelemetry.Metrics.Snapshot
import MeshTelemetry.Proofs.Data.KeyMap
import MeshTelemetry.Proofs.Data.Table

/-! What each operation of the store does to its four tables. Gauges are seen
through `gauge?`; the tables that an operation leaves alone come first, so that
later proofs never unfold an operation. -/

set_option autoImplicit false

namespace MeshTelemetry.Store

/-! Gauges -/

theorem gauge?_setGauge (s : Store) (g h : Gauge) (node m : String) (value : Binary64) :
    (s.setGauge g node value).gauge? h m =
      if g = h ∧ node = m then some value else s.gauge? h m := by
  unfold gauge? setGauge
  rw [Table.get?_insert]
  simp only [Prod.mk.injEq]

@[simp] theorem messages_setReading (s : Store) (g : Gauge) (node : String)
    (value : Option Binary64) : (s.setReading g node value).messages = s.messages := by
  cases value <;> rfl

@[simp] theorem info_setReading (s : Store) (g : Gauge) (node : String)
    (value : Option Binary64) : (s.setReading g node value).info = s.info := by
  cases value <;> rfl

@[simp] theorem identities_setReading (s : Store) (g : Gauge) (node : String)
    (value : Option Binary64) : (s.setReading g node value).identities = s.identities := by
  cases value <;> rfl

theorem gauge?_setReading (s : Store) (g h : Gauge) (node m : String) (value : Option Binary64) :
    (s.setReading g node value).gauge? h m =
      if g = h ∧ node = m then value.or (s.gauge? h m) else s.gauge? h m := by
  cases value with
  | none => simp [setReading]
  | some v => rw [setReading, gauge?_setGauge, Option.some_or]

theorem foldl_setReading (node : String) (r : Readings) (gs : List Gauge) (s : Store) :
    let t := gs.foldl (fun s g => s.setReading g node (r.get? g)) s
    t.messages = s.messages ∧ t.info = s.info ∧ t.identities = s.identities ∧
      ∀ h m, t.gauge? h m =
        if h ∈ gs ∧ node = m then (r.get? h).or (s.gauge? h m) else s.gauge? h m := by
  induction gs generalizing s with
  | nil => simp
  | cons g gs ih =>
    obtain ⟨hmessages, hinfo, hidentities, hgauge⟩ := ih (s.setReading g node (r.get? g))
    refine ⟨by simpa using hmessages, by simpa using hinfo, by simpa using hidentities, ?_⟩
    intro h m
    rw [List.foldl_cons, hgauge, gauge?_setReading]
    simp only [List.mem_cons]
    by_cases hm : node = m
    · by_cases hg : g = h
      · subst hg
        by_cases hmem : g ∈ gs
        · cases r.get? g <;> simp [hm, hmem]
        · simp [hm, hmem]
      · simp [hm, hg, Ne.symm hg]
    · simp [hm]

@[simp] theorem messages_setReadings (s : Store) (node : String) (r : Readings) :
    (s.setReadings node r).messages = s.messages := (foldl_setReading node r Gauge.all s).1

@[simp] theorem info_setReadings (s : Store) (node : String) (r : Readings) :
    (s.setReadings node r).info = s.info := (foldl_setReading node r Gauge.all s).2.1

@[simp] theorem identities_setReadings (s : Store) (node : String) (r : Readings) :
    (s.setReadings node r).identities = s.identities :=
  (foldl_setReading node r Gauge.all s).2.2.1

theorem gauge?_setReadings (s : Store) (node m : String) (r : Readings) (h : Gauge) :
    (s.setReadings node r).gauge? h m =
      if node = m then (r.get? h).or (s.gauge? h m) else s.gauge? h m := by
  have hgauge := (foldl_setReading node r Gauge.all s).2.2.2 h m
  simp only [Gauge.mem_all, true_and] at hgauge
  exact hgauge

/-! Counters -/

@[simp] theorem gauges_countMessage (s : Store) (labels : CountLabels) :
    (s.countMessage labels).gauges = s.gauges := by
  unfold countMessage
  split <;> rfl

@[simp] theorem gauge?_countMessage (s : Store) (labels : CountLabels) (g : Gauge) (m : String) :
    (s.countMessage labels).gauge? g m = s.gauge? g m := by
  rw [gauge?, gauges_countMessage, gauge?]

@[simp] theorem info_countMessage (s : Store) (labels : CountLabels) :
    (s.countMessage labels).info = s.info := by
  unfold countMessage
  split <;> rfl

@[simp] theorem identities_countMessage (s : Store) (labels : CountLabels) :
    (s.countMessage labels).identities = s.identities := by
  unfold countMessage
  split <;> rfl

/-- A counter is made with the labels that count first, and they stay on it. -/
theorem messages_countMessage (s : Store) (labels : CountLabels) (k : String) :
    (s.countMessage labels).messages.get? k =
      if labels.key = k then
        some (((s.messages.get? k).map Prod.fst).getD labels,
          ((s.messages.get? k).map Prod.snd).getD 0 + 1)
      else s.messages.get? k := by
  unfold countMessage
  split
  · rename_i made n hmade
    rw [Table.get?_insert]
    by_cases hk : labels.key = k
    · subst hk
      simp [hmade]
    · simp [hk]
  · rename_i hnone
    rw [Table.get?_insert]
    by_cases hk : labels.key = k
    · subst hk
      simp [hnone]
    · simp [hk]

@[simp] theorem info_touch (s : Store) (node : String) (timestamp : Int) (kind : MessageKind) :
    (s.touch node timestamp kind).info = s.info := by
  simp [touch, setGauge]

@[simp] theorem identities_touch (s : Store) (node : String) (timestamp : Int)
    (kind : MessageKind) : (s.touch node timestamp kind).identities = s.identities := by
  simp [touch, setGauge]

theorem gauge?_touch (s : Store) (node m : String) (timestamp : Int) (kind : MessageKind)
    (g : Gauge) :
    (s.touch node timestamp kind).gauge? g m =
      if Gauge.lastSeen = g ∧ node = m then some (Binary64.ofInt timestamp)
      else s.gauge? g m := by
  rw [touch, gauge?_countMessage, gauge?_setGauge]

/-! Identities -/

@[simp] theorem gauges_dropFormerIdentity (s : Store) (node : String) (identity : Identity) :
    (s.dropFormerIdentity node identity).gauges = s.gauges := by
  unfold dropFormerIdentity
  split
  · split <;> rfl
  · rfl

@[simp] theorem messages_dropFormerIdentity (s : Store) (node : String) (identity : Identity) :
    (s.dropFormerIdentity node identity).messages = s.messages := by
  unfold dropFormerIdentity
  split
  · split <;> rfl
  · rfl

@[simp] theorem identities_dropFormerIdentity (s : Store) (node : String) (identity : Identity) :
    (s.dropFormerIdentity node identity).identities = s.identities := by
  unfold dropFormerIdentity
  split
  · split <;> rfl
  · rfl

/-- The key that a node's former identity was shown under, if the new one differs. -/
def formerKey? (s : Store) (node : String) (identity : Identity) : Option String :=
  ((s.identities.get? node).filter fun former => former ≠ identity).map fun former =>
    InfoLabels.key ⟨node, former⟩

theorem info_dropFormerIdentity (s : Store) (node : String) (identity : Identity) (k : String) :
    (s.dropFormerIdentity node identity).info.get? k =
      if s.formerKey? node identity = some k then none else s.info.get? k := by
  unfold dropFormerIdentity formerKey?
  split
  · rename_i former hformer
    split
    · rename_i hsame
      simp [hformer, hsame]
    · rename_i hdiffers
      rw [Table.get?_erase, hformer, Option.filter_some_pos (by simpa using hdiffers)]
      simp
  · rename_i hnone
    simp [hnone]

@[simp] theorem gauges_showIdentity (s : Store) (labels : InfoLabels) :
    (s.showIdentity labels).gauges = s.gauges := by
  unfold showIdentity
  split <;> rfl

@[simp] theorem messages_showIdentity (s : Store) (labels : InfoLabels) :
    (s.showIdentity labels).messages = s.messages := by
  unfold showIdentity
  split <;> rfl

@[simp] theorem identities_showIdentity (s : Store) (labels : InfoLabels) :
    (s.showIdentity labels).identities = s.identities := by
  unfold showIdentity
  split <;> rfl

theorem info_showIdentity (s : Store) (labels : InfoLabels) (k : String) :
    (s.showIdentity labels).info.get? k =
      (s.info.get? k).or (if labels.key = k then some labels else none) := by
  unfold showIdentity
  split
  · rename_i hshown
    obtain ⟨l, hl⟩ := (Table.contains_iff _ _).mp hshown
    by_cases hk : labels.key = k
    · subst hk
      simp [hl]
    · simp [hk]
  · rename_i hnew
    rw [Table.get?_insert]
    by_cases hk : labels.key = k
    · subst hk
      simp [Table.get?_eq_none_of_not_contains hnew]
    · simp [hk]

@[simp] theorem gauges_setIdentity (s : Store) (node : String) (identity : Identity) :
    (s.setIdentity node identity).gauges = s.gauges := by
  simp [setIdentity]

@[simp] theorem gauge?_setIdentity (s : Store) (node m : String) (identity : Identity)
    (g : Gauge) : (s.setIdentity node identity).gauge? g m = s.gauge? g m := by
  rw [gauge?, gauges_setIdentity, gauge?]

@[simp] theorem messages_setIdentity (s : Store) (node : String) (identity : Identity) :
    (s.setIdentity node identity).messages = s.messages := by
  simp [setIdentity]

@[simp] theorem identities_setIdentity (s : Store) (node : String) (identity : Identity) :
    (s.setIdentity node identity).identities = s.identities.insert node identity := by
  simp [setIdentity]

/-- The series after a node gives an identity: its former one is gone, and the new
one is there unless its key was taken, when the labels of the taker stay. -/
theorem info_setIdentity (s : Store) (node : String) (identity : Identity) (k : String) :
    (s.setIdentity node identity).info.get? k =
      (if s.formerKey? node identity = some k then none else s.info.get? k).or
        (if InfoLabels.key ⟨node, identity⟩ = k then some ⟨node, identity⟩ else none) := by
  rw [← info_dropFormerIdentity, ← info_showIdentity]
  rfl

/-! Records -/

theorem gauge?_recordTelemetry (s : Store) (r : TelemetryRecord) (g : Gauge) (m : String) :
    (s.recordTelemetry r).gauge? g m =
      if r.node = m then
        if g = .lastSeen then some (Binary64.ofInt r.timestamp)
        else (r.readings.get? g).or (s.gauge? g m)
      else s.gauge? g m := by
  rw [recordTelemetry, gauge?_touch, gauge?_setReadings]
  by_cases hm : r.node = m
  · by_cases hg : g = .lastSeen
    · simp [hm, hg]
    · simp [hm, hg, Ne.symm hg]
  · simp [hm]

@[simp] theorem info_recordTelemetry (s : Store) (r : TelemetryRecord) :
    (s.recordTelemetry r).info = s.info := by
  simp [recordTelemetry]

@[simp] theorem identities_recordTelemetry (s : Store) (r : TelemetryRecord) :
    (s.recordTelemetry r).identities = s.identities := by
  simp [recordTelemetry]

theorem messages_recordTelemetry (s : Store) (r : TelemetryRecord) :
    (s.recordTelemetry r).messages =
      (s.countMessage ⟨r.node, MessageKind.telemetry.name⟩).messages := by
  simp only [recordTelemetry, touch, countMessage, setGauge, messages_setReadings]
  split <;> rfl

theorem gauge?_recordNodeInfo (s : Store) (r : NodeInfoRecord) (g : Gauge) (m : String) :
    (s.recordNodeInfo r).gauge? g m =
      if Gauge.lastSeen = g ∧ r.node = m then some (Binary64.ofInt r.timestamp)
      else s.gauge? g m := by
  rw [recordNodeInfo, gauge?_touch, gauge?_setIdentity]

@[simp] theorem info_recordNodeInfo (s : Store) (r : NodeInfoRecord) :
    (s.recordNodeInfo r).info = (s.setIdentity r.node r.identity).info := by
  simp [recordNodeInfo]

@[simp] theorem identities_recordNodeInfo (s : Store) (r : NodeInfoRecord) :
    (s.recordNodeInfo r).identities = s.identities.insert r.node r.identity := by
  simp [recordNodeInfo]

theorem messages_recordNodeInfo (s : Store) (r : NodeInfoRecord) :
    (s.recordNodeInfo r).messages =
      (s.countMessage ⟨r.node, MessageKind.nodeInfo.name⟩).messages := by
  simp only [recordNodeInfo, touch, countMessage, setGauge, messages_setIdentity]
  split <;> rfl

/-! Expiry -/

def without (s : Store) (gone : List String) : Store :=
  { s with gauges := s.gauges.filterKeys fun k => !(k.1.expires && decide (k.2 ∈ gone)) }

theorem gauge?_without (s : Store) (gone : List String) (g : Gauge) (m : String) :
    (s.without gone).gauge? g m =
      if g.expires = true ∧ m ∈ gone then none else s.gauge? g m := by
  rw [gauge?, without, Table.get?_filterKeys]
  cases g.expires <;> by_cases hm : m ∈ gone <;> simp [hm, gauge?]

theorem without_nil (s : Store) : s.without [] = s := by
  rw [without, Table.filterKeys_eq_self]
  intro k _
  simp

theorem without_without (s : Store) (gone more : List String) :
    (s.without gone).without more = s.without (gone ++ more) := by
  have htest : ∀ k : Gauge × String,
      (!(k.1.expires && decide (k.2 ∈ more)) && !(k.1.expires && decide (k.2 ∈ gone))) =
        !(k.1.expires && decide (k.2 ∈ gone ++ more)) := by
    intro k
    cases k.1.expires <;> simp [Bool.and_comm]
  simp only [without, Table.filterKeys_filterKeys, htest]

theorem removeGauge_fst (node : String) (state : Store × Nat) (g : Gauge) :
    (removeGauge node state g).1 =
      { state.1 with gauges := state.1.gauges.filterKeys fun k => decide (k ≠ (g, node)) } := by
  unfold removeGauge
  split
  · rfl
  · rename_i habsent
    rw [Table.filterKeys_eq_self]
    intro k hk
    rw [decide_eq_true_iff]
    rintro rfl
    exact habsent hk

theorem foldl_removeGauge (node : String) (gs : List Gauge) (state : Store × Nat) :
    (gs.foldl (removeGauge node) state).1 =
      { state.1 with
        gauges := state.1.gauges.filterKeys fun k => !(decide (k.1 ∈ gs) && decide (k.2 = node)) } := by
  induction gs generalizing state with
  | nil =>
    rw [Table.filterKeys_eq_self]
    · rfl
    · intro k _
      rfl
  | cons g gs ih =>
    have htest : ∀ k : Gauge × String,
        (!(decide (k.1 ∈ gs) && decide (k.2 = node)) && decide (k ≠ (g, node))) =
          !(decide (k.1 ∈ g :: gs) && decide (k.2 = node)) := by
      rintro ⟨h, m⟩
      by_cases hg : h = g <;> by_cases hm : m = node <;> simp [hg, hm]
    rw [List.foldl_cons, ih, removeGauge_fst]
    simp only [Table.filterKeys_filterKeys, htest]

theorem expireNode_fst (s : Store) (node : String) : (s.expireNode node).1 = s.without [node] := by
  rw [expireNode, foldl_removeGauge, without]
  simp only [List.mem_filter, Gauge.mem_all, true_and, Bool.decide_eq_true, List.mem_singleton]

@[simp] theorem messages_expireNode (s : Store) (node : String) :
    (s.expireNode node).1.messages = s.messages := by
  rw [expireNode_fst, without]

@[simp] theorem info_expireNode (s : Store) (node : String) :
    (s.expireNode node).1.info = s.info := by
  rw [expireNode_fst, without]

@[simp] theorem identities_expireNode (s : Store) (node : String) :
    (s.expireNode node).1.identities = s.identities := by
  rw [expireNode_fst, without]

theorem gauge?_expireNode (s : Store) (node m : String) (g : Gauge) :
    (s.expireNode node).1.gauge? g m =
      if g.expires = true ∧ node = m then none else s.gauge? g m := by
  rw [expireNode_fst, gauge?_without]
  simp only [List.mem_singleton, eq_comm]

/-! Listings -/

theorem mem_infoSeries (s : Store) (l : InfoLabels) :
    l ∈ s.infoSeries ↔ ∃ k, s.info.get? k = some l := by
  rw [infoSeries, List.mem_mergeSort, Table.mem_values_iff]

theorem mem_messageSeries (s : Store) (c : CountLabels × Nat) :
    c ∈ s.messageSeries ↔ ∃ k, s.messages.get? k = some c := by
  rw [messageSeries, List.mem_mergeSort, Table.mem_values_iff]

end MeshTelemetry.Store
