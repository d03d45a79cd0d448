import MeshTelemetry.Proofs.Exporter.Calls

/-! What a sweep does. The nodes it answers are exactly those it forgets and whose
ephemeral gauges it takes away, and they are the tracked nodes that were silent too long:
between the collection and the expiry nothing is heard, so no candidate is spared. -/

set_option autoImplicit false

namespace MeshTelemetry.Exporter

/-- An exporter without silent nodes: they are forgotten and lose their ephemeral gauges. -/
def without (e : Exporter) (gone : List String) : Exporter :=
  { e with
    activity := ⟨e.activity.seen.filterKeys fun m => decide (m ∉ gone)⟩
    store := e.store.without gone }

theorem without_nil (e : Exporter) : e.without [] = e := by
  rw [without, Store.without_nil, Table.filterKeys_eq_self]
  intro m _
  exact decide_eq_true List.not_mem_nil

theorem without_without (e : Exporter) (gone more : List String) :
    (e.without gone).without more = e.without (gone ++ more) := by
  simp only [without, Store.without_without, Table.filterKeys_filterKeys, List.mem_append, not_or,
    Bool.decide_and, Bool.and_comm]

theorem without_congr (e : Exporter) {gone gone' : List String} (h : ∀ m, m ∈ gone ↔ m ∈ gone') :
    e.without gone = e.without gone' := by
  simp only [without, Store.without, h]

theorem expire?_eq (e : Exporter) (c : String × Int) :
    e.expire? c =
      if e.activity.seen.get? c.1 = some c.2 then some (e.without [c.1]) else none := by
  have herase : e.activity.seen.erase c.1 =
      e.activity.seen.filterKeys fun m => decide (m ∉ [c.1]) := by
    simp only [List.mem_singleton]
    rfl
  rw [expire?, Activity.forget?, Store.expireNode_fst, without, herase]
  split <;> rfl

/-- What the expiry of some nodes takes and what it leaves. -/
structure Expired (gone : List String) (e e' : Exporter) : Prop where
  filters : e'.filters = e.filters
  seen : ∀ m, e'.activity.seen.get? m = if m ∈ gone then none else e.activity.seen.get? m
  gauge : ∀ g m, e'.store.gauge? g m =
    if g.expires = true ∧ m ∈ gone then none else e.store.gauge? g m
  messages : e'.store.messages = e.store.messages
  info : e'.store.info = e.store.info
  identities : e'.store.identities = e.store.identities

theorem expired_without (e : Exporter) (gone : List String) : Expired gone e (e.without gone) where
  filters := rfl
  seen := by
    intro m
    rw [without, Table.get?_filterKeys]
    by_cases hm : m ∈ gone <;> simp [hm]
  gauge := Store.gauge?_without e.store gone
  messages := rfl
  info := rfl
  identities := rfl

theorem expireAll_fst (e : Exporter) (cs : List (String × Int)) :
    (e.expireAll cs).1 = e.without (e.expireAll cs).2 := by
  induction cs generalizing e with
  | nil => exact e.without_nil.symm
  | cons c cs ih =>
    by_cases hc : e.activity.seen.get? c.1 = some c.2
    · have hexpired := e.expire?_eq c
      rw [if_pos hc] at hexpired
      rw [expireAll_expired hexpired, ih, without_without]
      rfl
    · have hspared := e.expire?_eq c
      rw [if_neg hc] at hspared
      rw [expireAll_spared hspared]
      exact ih e

theorem expireAll_of_seen {cs : List (String × Int)} (nodup : (cs.map Prod.fst).Nodup)
    (e : Exporter) (h : ∀ c ∈ cs, e.activity.seen.get? c.1 = some c.2) :
    (e.expireAll cs).2 = cs.map Prod.fst := by
  induction cs generalizing e with
  | nil => rfl
  | cons c cs ih =>
    obtain ⟨hc, hcs⟩ := List.forall_mem_cons.mp h
    obtain ⟨hnew, hrest⟩ := List.nodup_cons.mp nodup
    have hexpired := e.expire?_eq c
    rw [if_pos hc] at hexpired
    rw [expireAll_expired hexpired, List.map_cons]
    apply congrArg (List.cons c.1)
    apply ih hrest
    intro c' hc'
    have hother : c'.1 ∉ [c.1] := by
      intro hsame
      exact hnew (List.mem_singleton.mp hsame ▸ List.mem_map_of_mem hc')
    rw [(e.expired_without [c.1]).seen, if_neg hother]
    exact hcs c' hc'

theorem sweep_fst (e : Exporter) (ttl : Nat) (now : Int) :
    (e.sweep ttl now).1 = e.without (e.sweep ttl now).2 := expireAll_fst e _

theorem expired_sweep (e : Exporter) (ttl : Nat) (now : Int) :
    Expired (e.sweep ttl now).2 e (e.sweep ttl now).1 := by
  rw [sweep_fst]
  exact expired_without e _

theorem candidates_sublist (e : Exporter) (ttl : Nat) (now : Int) :
    (e.candidates ttl now).Sublist e.activity.seen.entries := by
  rw [candidates]
  split
  · exact List.nil_sublist _
  · exact List.filter_sublist

theorem nodup_candidates (e : Exporter) (ttl : Nat) (now : Int) :
    ((e.candidates ttl now).map Prod.fst).Nodup :=
  ((e.candidates_sublist ttl now).map Prod.fst).nodup e.activity.seen.nodup

theorem sweep_nodes (e : Exporter) (ttl : Nat) (now : Int) :
    (e.sweep ttl now).2 = (e.candidates ttl now).map Prod.fst := by
  apply expireAll_of_seen (e.nodup_candidates ttl now)
  intro c hc
  exact (Table.get?_eq_some_iff ..).mpr ((e.candidates_sublist ttl now).subset hc)

theorem mem_sweep_iff (e : Exporter) (ttl : Nat) (now : Int) (m : String) :
    m ∈ (e.sweep ttl now).2 ↔
      0 < ttl ∧ ∃ seen, e.activity.seen.get? m = some seen ∧ seen + ttl < now := by
  rw [sweep_nodes, candidates]
  split
  · rename_i hoff
    simp [hoff]
  · rename_i hon
    have hsilent : ∀ seen, (m, seen) ∈ e.activity.silent ttl now ↔
        e.activity.seen.get? m = some seen ∧ seen + ttl < now := by
      intro seen
      rw [Activity.silent, List.mem_filter, Activity.isStale, decide_eq_true_iff,
        Table.get?_eq_some_iff]
    constructor
    · intro hm
      obtain ⟨⟨_, seen⟩, hmem, rfl⟩ := List.mem_map.mp hm
      exact ⟨Nat.pos_of_ne_zero hon, seen, (hsilent seen).mp hmem⟩
    · rintro ⟨_, seen, hseen⟩
      exact List.mem_map.mpr ⟨(m, seen), (hsilent seen).mpr hseen, rfl⟩

theorem sweep_zero (e : Exporter) (now : Int) : e.sweep 0 now = (e, []) := by
  rw [sweep, candidates, if_pos rfl, expireAll]

/-- What a later sweep finds silent, an earlier one can only have taken before. -/
theorem sweep_sweep (e : Exporter) (ttl : Nat) {now later : Int} (h : now ≤ later) :
    ((e.sweep ttl now).1.sweep ttl later).1 = (e.sweep ttl later).1 := by
  rw [sweep_fst (e.sweep ttl now).1, sweep_fst e ttl later, sweep_fst e ttl now, without_without]
  apply without_congr
  intro m
  rw [List.mem_append, mem_sweep_iff, mem_sweep_iff, mem_sweep_iff,
    (e.expired_without (e.sweep ttl now).2).seen]
  constructor
  · rintro (⟨httl, seen, hseen, hsilent⟩ | ⟨httl, seen, hseen, hsilent⟩)
    · exact ⟨httl, seen, hseen, by omega⟩
    · split at hseen
      · cases hseen
      · exact ⟨httl, seen, hseen, hsilent⟩
  · rintro ⟨httl, seen, hseen, hsilent⟩
    by_cases hgone : m ∈ (e.sweep ttl now).2
    · exact .inl ((e.mem_sweep_iff ttl now m).mp hgone)
    · exact .inr ⟨httl, seen, by rw [if_neg hgone, hseen], hsilent⟩

/-- A sweep answers each node once that was silent for more than the span, forgets exactly
these nodes and takes exactly their ephemeral gauges; with a span of zero it does nothing. So
a sweep before a later one makes no difference to what the later one leaves. -/
theorem sweep_exact (e : Exporter) (ttl : Nat) (now : Int) :
    let gone := (e.sweep ttl now).2
    let e' := (e.sweep ttl now).1
    (ttl = 0 → e' = e ∧ gone = []) ∧
    gone.Nodup ∧
    (∀ m, m ∈ gone ↔ 0 < ttl ∧ ∃ seen, e.activity.seen.get? m = some seen ∧ ttl < now - seen) ∧
    (∀ m, e'.activity.seen.get? m = if m ∈ gone then none else e.activity.seen.get? m) ∧
    (∀ g m, e'.store.gauge? g m =
      if m ∈ gone ∧ g ≠ .rssi ∧ g ≠ .snr then none else e.store.gauge? g m) ∧
    e'.store.info = e.store.info ∧ e'.store.messages = e.store.messages ∧
    e'.store.identities = e.store.identities ∧ e'.filters = e.filters ∧
    ∀ later, now ≤ later → (e'.sweep ttl later).1 = (e.sweep ttl later).1 := by
  intro gone e'
  have hexpired : Expired gone e e' := expired_sweep e ttl now
  refine ⟨?_, ?_, ?_, hexpired.seen, ?_, hexpired.info, hexpired.messages, hexpired.identities,
    hexpired.filters, fun _ => e.sweep_sweep ttl⟩
  · rintro rfl
    exact ⟨congrArg Prod.fst (e.sweep_zero now), congrArg Prod.snd (e.sweep_zero now)⟩
  · show (e.sweep ttl now).2.Nodup
    rw [sweep_nodes]
    exact e.nodup_candidates ttl now
  · intro m
    have hspan : ∀ seen : Int, seen + ttl < now ↔ (ttl : Int) < now - seen := by omega
    simp only [gone, mem_sweep_iff, hspan]
  · intro g m
    have hkind : g.expires = true ↔ g ≠ .rssi ∧ g ≠ .snr := by cases g <;> decide
    rw [hexpired.gauge]
    simp only [hkind, and_comm]

/-- Four nodes: one was silent too long, one just as long as it may be, one was heard ahead
of the present, and one was silent too long but shows nothing. -/
def mixedSilence : Exporter where
  store := ((({} : Store).setGauge .voltage "1" (Binary64.ofNat 4)).setGauge
    .rssi "1" (Binary64.ofInt (-90))).setGauge .voltage "2" (Binary64.ofNat 3)
  activity := (((({} : Activity).touch "1" 0).touch "2" 10).touch "3" 25).touch "4" 5

theorem sweep_exact_mixedSilence :
    let e := mixedSilence
    let e' := (e.sweep 10 20).1
    (e.sweep 0 20).1 = e ∧ (e.sweep 0 20).2 = [] ∧
      ("1" ∈ (e.sweep 10 20).2 ∧ "2" ∉ (e.sweep 10 20).2 ∧ "3" ∉ (e.sweep 10 20).2 ∧
        "4" ∈ (e.sweep 10 20).2) ∧
      e'.store.gauge? .voltage "1" = none ∧
      e'.store.gauge? .rssi "1" = some (Binary64.ofInt (-90)) ∧
      e'.store.gauge? .voltage "2" = some (Binary64.ofNat 3) ∧
      (20 : Int) ≤ 31 ∧ (e'.sweep 10 31).1 = (e.sweep 10 31).1 := by
  obtain ⟨hoff, _⟩ := sweep_exact mixedSilence 0 20
  obtain ⟨hsame, hnone⟩ := hoff rfl
  obtain ⟨_, _, hgone, _, hgauge, _, _, _, _, hlater⟩ := sweep_exact mixedSilence 10 20
  have hfirst : "1" ∈ (mixedSilence.sweep 10 20).2 :=
    (hgone "1").mpr ⟨by decide, 0, by decide, by decide⟩
  have hsecond : "2" ∉ (mixedSilence.sweep 10 20).2 := by decide +kernel
  have hthird : "3" ∉ (mixedSilence.sweep 10 20).2 := by decide +kernel
  have hfourth : "4" ∈ (mixedSilence.sweep 10 20).2 :=
    (hgone "4").mpr ⟨by decide, 5, by decide, by decide⟩
  refine ⟨hsame, hnone, ⟨hfirst, hsecond, hthird, hfourth⟩, ?_, ?_, ?_, by decide,
    hlater 31 (by decide)⟩
  · rw [hgauge, if_pos ⟨hfirst, by decide, by decide⟩]
  · rw [hgauge, if_neg (fun h => h.2.1 rfl)]
    decide +kernel
  · rw [hgauge, if_neg (fun h => hsecond h.1)]
    decide +kernel

end MeshTelemetry.Exporter
