import MeshTelemetry.Proofs.Metrics.Views

/-! Runs of a store: records, expiries and restored snapshots, in any order. Two
facts hold after every run. Each identity series stands under the key of its own
labels and shows the identity that its node gave last, which is why a node never
shows two; each counter stands under the key of its own labels. -/

set_option autoImplicit false

namespace MeshTelemetry.Store

inductive Operation
  | record (r : Record)
  | expire (node : String)
  | restore (snapshot : Snapshot)

def Operation.IsNamed : Operation → Prop
  | .record r => r.node ≠ ""
  | _ => True

def perform (s : Store) : Operation → Store
  | .record r => s.record r
  | .expire node => (s.expireNode node).1
  | .restore snapshot => (s.restore snapshot).1

def performAll (s : Store) (ops : List Operation) : Store := ops.foldl perform s

theorem performAll_cons (s : Store) (op : Operation) (ops : List Operation) :
    s.performAll (op :: ops) = (s.perform op).performAll ops := rfl

theorem performAll_append (s : Store) (ops ops' : List Operation) :
    s.performAll (ops ++ ops') = (s.performAll ops).performAll ops' :=
  List.foldl_append

theorem performAll_keeps {P : Store → Prop} {ops : List Operation} {s : Store} (h : P s)
    (keeps : ∀ t, ∀ op ∈ ops, P t → P (t.perform op)) : P (s.performAll ops) := by
  induction ops generalizing s with
  | nil => exact h
  | cons op ops ih =>
    exact ih (keeps s op (List.mem_cons_self ..) h)
      fun t op' hop => keeps t op' (List.mem_cons_of_mem _ hop)

/-! A restored node is a sequence of gauges and identities set for it. -/

theorem restoreMetric_keeps {P : Store → Prop} (n : NodeSnapshot)
    (gauge : ∀ s g value, P s → P (s.setGauge g n.node value))
    (identity : ∀ s i, P s → P (s.setIdentity n.node i)) (s : Store) (e : String × Binary64)
    (h : P s) : P (restoreMetric n s e) := by
  unfold restoreMetric
  split
  · exact gauge _ _ _ h
  · split
    · exact identity _ _ h
    · exact h

theorem restore_keeps {P : Store → Prop}
    (gauge : ∀ s g node value, node ≠ "" → P s → P (s.setGauge g node value))
    (identity : ∀ s node i, node ≠ "" → P s → P (s.setIdentity node i)) (s : Store)
    (snapshot : Snapshot) (h : P s) : P (s.restore snapshot).1 := by
  have node : ∀ s (n : NodeSnapshot), P s → P (s.restoreNode n) := by
    intro s n h
    unfold restoreNode
    split
    · exact h
    · rename_i hnamed
      have hnode : n.node ≠ "" := by
        intro he
        rw [he] at hnamed
        exact hnamed rfl
      induction n.metrics.entries generalizing s with
      | nil => exact h
      | cons e es ih =>
        exact ih _ (restoreMetric_keeps n (fun s g v => gauge s g n.node v hnode)
          (fun s i => identity s n.node i hnode) s e h)
  unfold restore
  induction snapshot.nodes generalizing s with
  | nil => exact h
  | cons n ns ih => exact ih _ (node s n h)

/-! Consistency -/

structure Consistent (s : Store) : Prop where
  infoKey : ∀ k l, s.info.get? k = some l → l.key = k
  infoLatest : ∀ k l, s.info.get? k = some l → s.identities.get? l.node = some l.identity
  countKey : ∀ k c n, s.messages.get? k = some (c, n) → c.key = k
  countKind : ∀ k c n, s.messages.get? k = some (c, n) →
    c.kind = MessageKind.telemetry.name ∨ c.kind = MessageKind.nodeInfo.name

namespace Consistent

theorem empty : Consistent {} where
  infoKey := by intro k l h; cases h
  infoLatest := by intro k l h; cases h
  countKey := by intro k c n h; cases h
  countKind := by intro k c n h; cases h

variable {s : Store}

theorem of_tables {t : Store} (h : Consistent s) (messages : t.messages = s.messages)
    (info : t.info = s.info) (identities : t.identities = s.identities) : Consistent t where
  infoKey := info ▸ h.infoKey
  infoLatest := info ▸ identities ▸ h.infoLatest
  countKey := messages ▸ h.countKey
  countKind := messages ▸ h.countKind

theorem setGauge (h : Consistent s) (g : Gauge) (node : String) (value : Binary64) :
    Consistent (s.setGauge g node value) := h.of_tables rfl rfl rfl

/-- The former series of a node goes before the new one comes, even where the two
run together alike, so the series that stays shows the new identity. -/
theorem setIdentity (h : Consistent s) (node : String) (identity : Identity) :
    Consistent (s.setIdentity node identity) where
  infoKey := by
    intro k l hl
    rw [info_setIdentity, Option.or_eq_some_iff] at hl
    rcases hl with hold | ⟨_, hnew⟩
    · split at hold
      · cases hold
      · exact h.infoKey k l hold
    · split at hnew
      · rename_i hk
        cases hnew
        exact hk
      · cases hnew
  infoLatest := by
    intro k l hl
    rw [info_setIdentity, Option.or_eq_some_iff] at hl
    rw [identities_setIdentity, Table.get?_insert]
    rcases hl with hold | ⟨_, hnew⟩
    · split at hold
      · cases hold
      · rename_i hkept
        have hlatest := h.infoLatest k l hold
        split
        · rename_i hnode
          rw [← hnode] at hlatest
          by_cases hsame : l.identity = identity
          · rw [hsame]
          · refine absurd ?_ hkept
            rw [formerKey?, hlatest, Option.filter_some_pos (by simpa using hsame),
              Option.map_some, hnode]
            exact congrArg some (h.infoKey k l hold)
        · exact hlatest
    · split at hnew
      · cases hnew
        rw [if_pos rfl]
      · cases hnew
  countKey := by
    rw [messages_setIdentity]
    exact h.countKey
  countKind := by
    rw [messages_setIdentity]
    exact h.countKind

theorem countMessage (h : Consistent s) {labels : CountLabels}
    (kind : labels.kind = MessageKind.telemetry.name ∨
      labels.kind = MessageKind.nodeInfo.name) : Consistent (s.countMessage labels) where
  infoKey := by
    rw [info_countMessage]
    exact h.infoKey
  infoLatest := by
    rw [info_countMessage, identities_countMessage]
    exact h.infoLatest
  countKey := by
    intro k c n hc
    rw [messages_countMessage] at hc
    split at hc
    · rename_i hk
      cases hold : s.messages.get? k with
      | none =>
        simp only [hold, Option.map_none, Option.getD_none, Option.some.injEq,
          Prod.mk.injEq] at hc
        exact hc.1 ▸ hk
      | some e =>
        simp only [hold, Option.map_some, Option.getD_some, Option.some.injEq,
          Prod.mk.injEq] at hc
        exact hc.1 ▸ h.countKey k e.1 e.2 hold
    · exact h.countKey k c n hc
  countKind := by
    intro k c n hc
    rw [messages_countMessage] at hc
    split at hc
    · cases hold : s.messages.get? k with
      | none =>
        simp only [hold, Option.map_none, Option.getD_none, Option.some.injEq,
          Prod.mk.injEq] at hc
        exact hc.1 ▸ kind
      | some e =>
        simp only [hold, Option.map_some, Option.getD_some, Option.some.injEq,
          Prod.mk.injEq] at hc
        exact hc.1 ▸ h.countKind k e.1 e.2 hold
    · exact h.countKind k c n hc

theorem record (h : Consistent s) (r : Record) : Consistent (s.record r) := by
  cases r with
  | telemetry r =>
    have hread : Consistent (s.setReadings r.node r.readings) := h.of_tables (by simp) (by simp) (by simp)
    exact (hread.setGauge _ _ _).countMessage (.inl rfl)
  | nodeInfo r => exact ((h.setIdentity _ _).setGauge _ _ _).countMessage (.inr rfl)

theorem perform (h : Consistent s) (op : Operation) : Consistent (s.perform op) := by
  cases op with
  | record r => exact h.record r
  | expire node => exact h.of_tables (by simp [Store.perform]) (by simp [Store.perform]) (by simp [Store.perform])
  | restore snapshot =>
    exact restore_keeps (fun _ g node value _ h => h.setGauge g node value)
      (fun _ node i _ h => h.setIdentity node i) s snapshot h

theorem performAll (h : Consistent s) (ops : List Operation) : Consistent (s.performAll ops) :=
  performAll_keeps h fun _ op _ ht => ht.perform op

theorem mem_infoSeries (h : Consistent s) (l : InfoLabels) :
    l ∈ s.infoSeries ↔ s.info.get? l.key = some l := by
  rw [Store.mem_infoSeries]
  constructor
  · rintro ⟨k, hk⟩
    rw [h.infoKey k l hk]
    exact hk
  · intro hl
    exact ⟨l.key, hl⟩

theorem mem_messageSeries (h : Consistent s) (c : CountLabels × Nat) :
    c ∈ s.messageSeries ↔ s.messages.get? c.1.key = some c := by
  rw [Store.mem_messageSeries]
  constructor
  · rintro ⟨k, hk⟩
    rw [h.countKey k c.1 c.2 hk]
    exact hk
  · intro hc
    exact ⟨c.1.key, hc⟩

end Consistent

/-! Nodes without an id never come in. -/

structure Named (s : Store) : Prop where
  gauge : ∀ g m x, s.gauge? g m = some x → m ≠ ""
  info : ∀ l ∈ s.infoSeries, l.node ≠ ""

namespace Named

theorem empty : Named {} where
  gauge := by intro g m x h; cases h
  info := by
    intro l hl
    rw [mem_infoSeries] at hl
    obtain ⟨k, hk⟩ := hl
    cases hk

variable {s : Store}

theorem setGauge (h : Named s) (g : Gauge) {node : String} (value : Binary64)
    (named : node ≠ "") : Named (s.setGauge g node value) where
  gauge := by
    intro g' m x hx
    rw [gauge?_setGauge] at hx
    split at hx
    · rename_i hm
      exact hm.2 ▸ named
    · exact h.gauge g' m x hx
  info := h.info

theorem setIdentity (h : Named s) {node : String} (identity : Identity) (named : node ≠ "") :
    Named (s.setIdentity node identity) where
  gauge := by
    intro g m x hx
    rw [gauge?_setIdentity] at hx
    exact h.gauge g m x hx
  info := by
    intro l hl
    obtain ⟨k, hk⟩ := (mem_infoSeries _ l).mp hl
    rw [info_setIdentity, Option.or_eq_some_iff] at hk
    rcases hk with hold | ⟨_, hnew⟩
    · split at hold
      · cases hold
      · exact h.info l ((mem_infoSeries s l).mpr ⟨k, hold⟩)
    · split at hnew
      · cases hnew
        exact named
      · cases hnew

theorem of_gauges {t : Store} (h : Named s) (info : t.info = s.info)
    (gauges : ∀ g m x, t.gauge? g m = some x → m ≠ "" ∨ s.gauge? g m = some x) : Named t where
  gauge := by
    intro g m x hx
    rcases gauges g m x hx with hm | hold
    · exact hm
    · exact h.gauge g m x hold
  info := by
    intro l hl
    rw [mem_infoSeries, info, ← mem_infoSeries] at hl
    exact h.info l hl

theorem record (h : Named s) {r : Record} (named : r.node ≠ "") : Named (s.record r) := by
  cases r with
  | telemetry r =>
    refine h.of_gauges (info_recordTelemetry s r) fun g m x hx => ?_
    rw [Store.record, gauge?_recordTelemetry] at hx
    split at hx
    · rename_i hm
      exact .inl (hm ▸ named)
    · exact .inr hx
  | nodeInfo r =>
    refine (h.setIdentity r.identity named).of_gauges (info_recordNodeInfo s r) fun g m x hx => ?_
    rw [Store.record, gauge?_recordNodeInfo] at hx
    rw [gauge?_setIdentity]
    split at hx
    · rename_i hm
      exact .inl (hm.2 ▸ named)
    · exact .inr hx

theorem perform (h : Named s) {op : Operation} (named : op.IsNamed) : Named (s.perform op) := by
  cases op with
  | record r => exact h.record named
  | expire node =>
    rw [Store.perform]
    refine h.of_gauges (info_expireNode s node) ?_
    intro g m x hx
    rw [gauge?_expireNode] at hx
    split at hx
    · cases hx
    · exact .inr hx
  | restore snapshot =>
    exact restore_keeps (fun _ g _ value hnode h => h.setGauge g value hnode)
      (fun _ _ i hnode h => h.setIdentity i hnode) s snapshot h

theorem performAll (h : Named s) {ops : List Operation} (named : ∀ op ∈ ops, op.IsNamed) :
    Named (s.performAll ops) :=
  performAll_keeps h fun _ op hop ht => ht.perform (named op hop)

end Named

end MeshTelemetry.Store
