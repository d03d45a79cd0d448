import MeshTelemetry.Proofs.Metrics.LatestIdentity

/-! A snapshot restored again. Gauges, counters and the identities that nodes gave are
the same after the second time as after the first. What identity series stand may differ
once, where the labels of two nodes run together alike: the second time each node starts
from the last identity that the snapshot gives it, so other series are taken away. From
then on nothing changes any more. -/

set_option autoImplicit false

namespace MeshTelemetry

def Snapshot.given (s : Snapshot) : List (String × Identity) :=
  s.nodes.filterMap NodeSnapshot.given?

namespace Store

def setIdentities (s : Store) (given : List (String × Identity)) : Store :=
  given.foldl (fun s g => s.setIdentity g.1 g.2) s

theorem setIdentities_cons (s : Store) (node : String) (identity : Identity)
    (given : List (String × Identity)) :
    s.setIdentities ((node, identity) :: given) =
      (s.setIdentity node identity).setIdentities given := rfl

/-! A restoration, table by table -/

theorem gauge?_foldl_restoreNode (ns : List NodeSnapshot) (g : Gauge) (m : String) :
    ∃ given : Option Binary64, ∀ s : Store,
      (ns.foldl restoreNode s).gauge? g m = given.or (s.gauge? g m) := by
  induction ns with
  | nil => exact ⟨none, fun s => rfl⟩
  | cons n ns ih =>
    obtain ⟨later, hlater⟩ := ih
    by_cases hn : n.node ≠ "" ∧ n.node = m
    · refine ⟨later.or (n.metrics.get? g.metricName), fun s => ?_⟩
      rw [List.foldl_cons, hlater, gauge?_restoreNode s hn.1, if_pos hn.2, Option.or_assoc]
    · refine ⟨later, fun s => ?_⟩
      rw [List.foldl_cons, hlater]
      by_cases hnamed : n.node = ""
      · rw [restoreNode, hnamed]
        rfl
      · rw [gauge?_restoreNode s hnamed, if_neg fun hm => hn ⟨hnamed, hm⟩]

theorem info_restoreNode_given (s : Store) (n : NodeSnapshot) :
    (s.restoreNode n).info = (s.setIdentities n.given?.toList).info ∧
      (s.restoreNode n).identities = (s.setIdentities n.given?.toList).identities := by
  by_cases hnamed : n.node = ""
  · rw [show n.given? = none from if_neg fun h => h.1 hnamed, restoreNode, hnamed]
    exact ⟨rfl, rfl⟩
  · obtain ⟨hinfo, hidentities⟩ := info_restoreNode s hnamed
    rw [hinfo, hidentities]
    by_cases hmark : infoName ∈ n.metrics.keys
    · rw [if_pos hmark, show n.given? = _ from if_pos ⟨hnamed, hmark⟩]
      exact ⟨rfl, rfl⟩
    · rw [if_neg hmark, show n.given? = none from if_neg fun h => hmark h.2]
      exact ⟨rfl, rfl⟩

theorem setIdentities_congr {s t : Store} (info : s.info = t.info)
    (identities : s.identities = t.identities) (given : List (String × Identity)) :
    (s.setIdentities given).info = (t.setIdentities given).info ∧
      (s.setIdentities given).identities = (t.setIdentities given).identities := by
  induction given generalizing s t with
  | nil => exact ⟨info, identities⟩
  | cons g given ih =>
    obtain ⟨hinfo, hidentities⟩ := setIdentity_congr info identities g.1 g.2
    exact ih hinfo hidentities

theorem info_restore (s : Store) (snapshot : Snapshot) :
    (s.restore snapshot).1.info = (s.setIdentities snapshot.given).info ∧
      (s.restore snapshot).1.identities = (s.setIdentities snapshot.given).identities := by
  rw [restore_fst, Snapshot.given]
  induction snapshot.nodes generalizing s with
  | nil => exact ⟨rfl, rfl⟩
  | cons n ns ih =>
    obtain ⟨hinfo, hidentities⟩ := info_restoreNode_given s n
    obtain ⟨hinfo', hidentities'⟩ :=
      setIdentities_congr hinfo hidentities (ns.filterMap NodeSnapshot.given?)
    rw [List.foldl_cons, (ih _).1, (ih _).2, hinfo', hidentities']
    cases hgiven : n.given? with
    | none => rw [List.filterMap_cons_none hgiven]; exact ⟨rfl, rfl⟩
    | some g => rw [List.filterMap_cons_some hgiven]; exact ⟨rfl, rfl⟩

theorem identities_setIdentities (s : Store) (given : List (String × Identity)) (m : String) :
    (s.setIdentities given).identities.get? m =
      (given.reverse.lookup m).or (s.identities.get? m) := by
  induction given generalizing s with
  | nil => rfl
  | cons g given ih =>
    rw [setIdentities_cons, ih, identities_setIdentity, Table.get?_insert, List.reverse_cons,
      List.lookup_append, lookup_singleton, Option.or_assoc]
    split <;> rfl

/-- A second time gives no node another identity. -/
theorem identities_restore_twice (s : Store) (snapshot : Snapshot) (m : String) :
    ((s.restore snapshot).1.restore snapshot).1.identities.get? m =
      (s.restore snapshot).1.identities.get? m := by
  rw [(info_restore _ snapshot).2, identities_setIdentities, (info_restore s snapshot).2,
    identities_setIdentities, ← Option.or_assoc, Option.or_self]

/-! One key of the identity series -/

/-- What a run of identities does to a key is told by the run and by the identities that
the nodes had before: it takes the series there away or not, and fills a gap or not. -/
theorem info_setIdentities_eq (given : List (String × Identity)) (k : String)
    (latest : String → Option Identity) :
    ∃ (taken : Bool) (filled : Option InfoLabels), ∀ s : Store,
      (∀ m, s.identities.get? m = latest m) →
      (s.setIdentities given).info.get? k = (if taken then none else s.info.get? k).or filled := by
  induction given generalizing latest with
  | nil => exact ⟨false, none, fun s _ => by simp [setIdentities]⟩
  | cons g given ih =>
    obtain ⟨node, identity⟩ := g
    let former := ((latest node).filter fun former => former ≠ identity).map fun former =>
      InfoLabels.key ⟨node, former⟩
    let shown : Option InfoLabels :=
      if InfoLabels.key ⟨node, identity⟩ = k then some ⟨node, identity⟩ else none
    obtain ⟨taken, filled, hlater⟩ := ih fun m => if node = m then some identity else latest m
    refine ⟨decide (former = some k) || taken, (if taken then none else shown).or filled, ?_⟩
    intro s hs
    have hformer : s.formerKey? node identity = former := by rw [formerKey?, hs]
    have hafter : ∀ m, (s.setIdentity node identity).identities.get? m =
        if node = m then some identity else latest m := by
      intro m
      rw [identities_setIdentity, Table.get?_insert, hs]
    rw [setIdentities_cons, hlater _ hafter, info_setIdentity, hformer]
    cases taken <;> by_cases hk : former = some k <;> simp [hk, shown, Option.or_assoc]

/-- From the second time on a snapshot is restored to where it was. -/
theorem info_restore_thrice (s : Store) (snapshot : Snapshot) (k : String) :
    let twice := ((s.restore snapshot).1.restore snapshot).1
    (twice.restore snapshot).1.info.get? k = twice.info.get? k := by
  intro twice
  let once := (s.restore snapshot).1
  obtain ⟨taken, filled, hkey⟩ :=
    info_setIdentities_eq snapshot.given k fun m => once.identities.get? m
  have htwice : twice.info.get? k = (if taken then none else once.info.get? k).or filled := by
    rw [← hkey once fun m => rfl, ← (info_restore once snapshot).1]
  have hthrice : (twice.restore snapshot).1.info.get? k =
      (if taken then none else twice.info.get? k).or filled := by
    rw [(info_restore twice snapshot).1]
    exact hkey twice fun m => identities_restore_twice s snapshot m
  rw [hthrice, htwice]
  cases taken
  · simp [Option.or_assoc]
  · rfl

/-! Snapshots that give no node two identities -/

/-- Identities that the nodes have already take nothing away; they fill gaps. -/
theorem info_setIdentities_of_latest {given : List (String × Identity)} {s : Store}
    (h : ∀ g ∈ given, s.identities.get? g.1 = some g.2) (k : String) :
    (s.setIdentities given).info.get? k =
      (s.info.get? k).or ((given.map fun g => InfoLabels.mk g.1 g.2).find? fun l => l.key = k) := by
  induction given generalizing s with
  | nil => exact Option.or_none.symm
  | cons g given ih =>
    obtain ⟨hg, hrest⟩ := List.forall_mem_cons.mp h
    obtain ⟨node, identity⟩ := g
    have hformer : s.formerKey? node identity = none := by simp [formerKey?, hg]
    have hafter : ∀ g' ∈ given, (s.setIdentity node identity).identities.get? g'.1 = some g'.2 := by
      intro g' hg'
      rw [identities_setIdentity, Table.get?_insert]
      split
      · rename_i hsame
        rw [← hg, ← hrest g' hg', hsame]
      · exact hrest g' hg'
    rw [setIdentities_cons, ih hafter, info_setIdentity, hformer, Option.or_assoc]
    by_cases hk : InfoLabels.key ⟨node, identity⟩ = k <;> simp [hk]

theorem lookup_reverse_of_mem {given : List (String × Identity)} {g : String × Identity}
    (agree : ∀ g ∈ given, ∀ g' ∈ given, g.1 = g'.1 → g.2 = g'.2) (h : g ∈ given) :
    given.reverse.lookup g.1 = some g.2 := by
  cases hfound : given.reverse.lookup g.1 with
  | none =>
    have hnone := List.lookup_eq_none_iff.mp hfound g (List.mem_reverse.mpr h)
    simp at hnone
  | some i =>
    obtain ⟨before, after, hsplit, _⟩ := List.lookup_eq_some_iff.mp hfound
    have hmem : (g.1, i) ∈ given := by
      rw [← List.mem_reverse, hsplit]
      simp
    rw [agree g h _ hmem rfl]

/-! Identities of different nodes that do not run together alike -/

def Knows (s : Store) (given : List (String × Identity)) (l : InfoLabels) : Prop :=
  s.identities.get? l.node = some l.identity ∨ (l.node, l.identity) ∈ given

/-- The labels of different nodes never run together alike. -/
def IsApart (s : Store) (given : List (String × Identity)) : Prop :=
  ∀ a b : InfoLabels, s.Knows given a → s.Knows given b → a.key = b.key → a.node = b.node

variable {s : Store} {given : List (String × Identity)} {node : String} {identity : Identity}

theorem IsApart.mono {t : Store} {given' : List (String × Identity)} (h : s.IsApart given)
    (sub : ∀ l, t.Knows given' l → s.Knows given l) : t.IsApart given' :=
  fun a b ha hb => h a b (sub a ha) (sub b hb)

theorem IsApart.setIdentity (h : s.IsApart ((node, identity) :: given)) :
    (s.setIdentity node identity).IsApart given := by
  apply h.mono
  rintro l (hlatest | hgiven)
  · rw [identities_setIdentity, Table.get?_insert] at hlatest
    split at hlatest
    · rename_i hnode
      cases hlatest
      exact .inr (hnode ▸ List.mem_cons_self ..)
    · exact .inl hlatest
  · exact .inr (List.mem_cons_of_mem _ hgiven)

theorem IsApart.setIdentities (h : s.IsApart given) : (s.setIdentities given).IsApart given := by
  apply h.mono
  rintro l (hlatest | hgiven)
  · rw [identities_setIdentities, Option.or_eq_some_iff] at hlatest
    rcases hlatest with hfound | ⟨_, hbefore⟩
    · obtain ⟨before, after, hsplit, _⟩ := List.lookup_eq_some_iff.mp hfound
      have hmem : (l.node, l.identity) ∈ given := by
        rw [← List.mem_reverse, hsplit]
        simp
      exact .inr hmem
    · exact .inl hbefore
  · exact .inr hgiven

theorem Consistent.info_setIdentity_of_isApart (h : s.Consistent)
    (apart : s.IsApart ((node, identity) :: given)) (l : InfoLabels) :
    (s.setIdentity node identity).info.get? l.key = some l ↔
      l = ⟨node, identity⟩ ∨ l.node ≠ node ∧ s.info.get? l.key = some l := by
  have hafter : (s.setIdentity node identity).Consistent := h.setIdentity node identity
  have hknown : ∀ k l', (s.setIdentity node identity).info.get? k = some l' →
      s.Knows ((node, identity) :: given) l' := by
    intro k l' hl'
    have hlatest := hafter.infoLatest k l' hl'
    rw [identities_setIdentity, Table.get?_insert] at hlatest
    split at hlatest
    · rename_i hnode
      cases hlatest
      exact .inr (hnode ▸ List.mem_cons_self ..)
    · exact .inl hlatest
  have hown : ∀ k l', (s.setIdentity node identity).info.get? k = some l' → l'.node = node →
      l' = ⟨node, identity⟩ := by
    intro k l' hl' hnode
    have hlatest := hafter.infoLatest k l' hl'
    rw [identities_setIdentity, Table.get?_insert, if_pos hnode.symm] at hlatest
    cases l'
    cases hnode
    cases hlatest
    rfl
  constructor
  · intro hl
    by_cases hnode : l.node = node
    · exact .inl (hown _ l hl hnode)
    · rw [info_setIdentity, Option.or_eq_some_iff] at hl
      rcases hl with hold | ⟨_, hnew⟩
      · exact .inr ⟨hnode, (Option.ite_none_left_eq_some.mp hold).2⟩
      · rw [Option.ite_none_right_eq_some] at hnew
        cases hnew.2
        exact absurd rfl hnode
  · rintro (rfl | ⟨hnode, hl⟩)
    · obtain ⟨l', hl'⟩ : ∃ l', (s.setIdentity node identity).info.get?
          (InfoLabels.key ⟨node, identity⟩) = some l' := by
        rw [info_setIdentity, if_pos rfl]
        exact ⟨_, Option.or_some⟩
      have hsame : l'.node = node :=
        apart l' ⟨node, identity⟩ (hknown _ l' hl') (.inr (List.mem_cons_self ..))
          (hafter.infoKey _ l' hl')
      rw [hl', hown _ l' hl' hsame]
    · have hkept : s.formerKey? node identity ≠ some l.key := by
        intro htaken
        obtain ⟨former, hformer, hkey⟩ := Option.map_eq_some_iff.mp htaken
        have hlatest := (Option.filter_eq_some_iff.mp hformer).1
        exact hnode (apart ⟨node, former⟩ l (.inl hlatest) (.inl (h.infoLatest _ l hl)) hkey).symm
      rw [info_setIdentity, if_neg hkept, hl, Option.some_or]

theorem Consistent.setIdentities (h : s.Consistent) (given : List (String × Identity)) :
    (s.setIdentities given).Consistent := by
  induction given generalizing s with
  | nil => exact h
  | cons g given ih => exact ih (h.setIdentity g.1 g.2)

/-- After a run a node that was given an identity shows the last one, and a node that was
given none shows what it showed. -/
theorem Consistent.info_setIdentities_of_isApart (h : s.Consistent) (apart : s.IsApart given)
    (l : InfoLabels) :
    (s.setIdentities given).info.get? l.key = some l ↔
      given.reverse.lookup l.node = some l.identity ∨
        given.reverse.lookup l.node = none ∧ s.info.get? l.key = some l := by
  induction given generalizing s with
  | nil => simp [Store.setIdentities]
  | cons g given ih =>
    obtain ⟨node, identity⟩ := g
    rw [setIdentities_cons, ih (h.setIdentity node identity) apart.setIdentity,
      h.info_setIdentity_of_isApart apart, List.reverse_cons, List.lookup_append, lookup_singleton]
    cases given.reverse.lookup l.node with
    | some i => simp
    | none =>
      by_cases hnode : node = l.node
      · subst hnode
        have heq : l = ⟨l.node, identity⟩ ↔ identity = l.identity := by
          constructor
          · intro hl
            rw [hl]
          · rintro rfl
            rfl
        simp [heq]
      · have hne : l ≠ ⟨node, identity⟩ := fun hl => hnode (hl ▸ rfl)
        simp [hne, hnode, Ne.symm hnode]

theorem Consistent.info_restore_twice (h : s.Consistent) {snapshot : Snapshot}
    (apart : s.IsApart snapshot.given) (k : String) :
    ((s.restore snapshot).1.restore snapshot).1.info.get? k =
      (s.restore snapshot).1.info.get? k := by
  let once := s.setIdentities snapshot.given
  obtain ⟨hinfo, hidentities⟩ := info_restore s snapshot
  have htwice : ((s.restore snapshot).1.restore snapshot).1.info =
      (once.setIdentities snapshot.given).info := by
    rw [(info_restore _ snapshot).1]
    exact (setIdentities_congr hinfo hidentities snapshot.given).1
  have hconsistent : once.Consistent := h.setIdentities snapshot.given
  have hshown := h.info_setIdentities_of_isApart apart
  have hshown' := hconsistent.info_setIdentities_of_isApart apart.setIdentities
  rw [htwice, hinfo]
  apply Option.ext
  intro l
  have hsame : (once.setIdentities snapshot.given).info.get? l.key = some l ↔
      once.info.get? l.key = some l := by
    rw [hshown', hshown]
    cases snapshot.given.reverse.lookup l.node <;> simp
  constructor
  · intro hl
    have hkey := (hconsistent.setIdentities snapshot.given).infoKey k l hl
    exact hkey ▸ hsame.mp (hkey.symm ▸ hl)
  · intro hl
    have hkey := hconsistent.infoKey k l hl
    exact hkey ▸ hsame.mpr (hkey.symm ▸ hl)

/-- A second time changes no identity series exactly if the first time left one standing
for every identity given, its node's own or one that it shares. -/
theorem info_restore_twice_iff (s : Store) {snapshot : Snapshot}
    (agree : ∀ g ∈ snapshot.given, ∀ g' ∈ snapshot.given, g.1 = g'.1 → g.2 = g'.2) :
    (∀ k, ((s.restore snapshot).1.restore snapshot).1.info.get? k =
        (s.restore snapshot).1.info.get? k) ↔
      ∀ g ∈ snapshot.given,
        (s.restore snapshot).1.info.contains (InfoLabels.key ⟨g.1, g.2⟩) = true := by
  have hlatest : ∀ g ∈ snapshot.given, (s.restore snapshot).1.identities.get? g.1 = some g.2 := by
    intro g hg
    rw [(info_restore s snapshot).2, identities_setIdentities, lookup_reverse_of_mem agree hg,
      Option.some_or]
  have htwice : ∀ k, ((s.restore snapshot).1.restore snapshot).1.info.get? k =
      ((s.restore snapshot).1.info.get? k).or
        ((snapshot.given.map fun g => InfoLabels.mk g.1 g.2).find? fun l => l.key = k) := by
    intro k
    rw [(info_restore _ snapshot).1, info_setIdentities_of_latest hlatest]
  constructor
  · intro hsame g hg
    have hkey := hsame (InfoLabels.key ⟨g.1, g.2⟩)
    rw [htwice] at hkey
    rw [Table.contains, ← hkey, Option.isSome_or, Bool.or_eq_true]
    refine .inr (List.find?_isSome.mpr ⟨⟨g.1, g.2⟩, List.mem_map.mpr ⟨g, hg, rfl⟩, ?_⟩)
    exact decide_eq_true rfl
  · intro hshown k
    rw [htwice]
    cases hfound : (snapshot.given.map fun g => InfoLabels.mk g.1 g.2).find? fun l => l.key = k with
    | none => exact Option.or_none
    | some l =>
      have hkey : l.key = k := by simpa using List.find?_some hfound
      obtain ⟨g, hg, rfl⟩ := List.mem_map.mp (List.mem_of_find?_eq_some hfound)
      obtain ⟨shown, hshown⟩ := (Table.contains_iff ..).mp (hshown g hg)
      rw [← hkey, hshown, Option.some_or]

/-- What a second restoration of a snapshot changes. Gauges, counters, the identities that
nodes gave last and the nodes told are the same. So are the identity series if the labels
of different nodes never run together alike, and, where no node is given two identities,
exactly if each one given stood after the first time. A third time changes nothing. -/
theorem restore_twice (ops : List Operation) (snapshot : Snapshot) :
    let s := performAll {} ops
    let once := s.restore snapshot
    let twice := once.1.restore snapshot
    twice.2 = once.2 ∧
      (∀ g m, twice.1.gauge? g m = once.1.gauge? g m) ∧
      twice.1.messages = once.1.messages ∧
      (∀ m, twice.1.identities.get? m = once.1.identities.get? m) ∧
      (s.IsApart snapshot.given → ∀ k, twice.1.info.get? k = once.1.info.get? k) ∧
      ((∀ g ∈ snapshot.given, ∀ g' ∈ snapshot.given, g.1 = g'.1 → g.2 = g'.2) →
        ((∀ k, twice.1.info.get? k = once.1.info.get? k) ↔
          ∀ g ∈ snapshot.given, once.1.info.contains (InfoLabels.key ⟨g.1, g.2⟩) = true)) ∧
      ∀ k, (twice.1.restore snapshot).1.info.get? k = twice.1.info.get? k := by
  intro s once twice
  have hconsistent : s.Consistent := Consistent.empty.performAll ops
  refine ⟨rfl, ?_, messages_restore once.1 snapshot, identities_restore_twice s snapshot, ?_,
    info_restore_twice_iff s, info_restore_thrice s snapshot⟩
  · intro g m
    obtain ⟨given, hgiven⟩ := gauge?_foldl_restoreNode snapshot.nodes g m
    show (once.1.restore snapshot).1.gauge? g m = (s.restore snapshot).1.gauge? g m
    rw [restore_fst, hgiven, restore_fst, hgiven, ← Option.or_assoc, Option.or_self]
  · intro apart
    exact hconsistent.info_restore_twice apart

def namesGiven (given : List (String × String)) : Snapshot where
  version := snapshotVersion
  timestamp := 0
  nodes := given.map fun g =>
    ⟨g.1, 0, .ofList [(infoName, Binary64.ofNat 1)], .ofList [("long_name", g.2)]⟩

/-- Node 1 is named 23, and node 12 is named 4 and then 3, which makes it share the series
of node 1. The second time node 12 starts from the shared series and takes it away. -/
def sharedAtLast : Snapshot := namesGiven [("1", "23"), ("12", "4"), ("12", "3")]

def namedThree : List Operation :=
  [.record (.nodeInfo ⟨"12", ⟨"3", "", "unknown", "unknown"⟩, 5⟩)]

/-- Node 1 shares the series of a node 12 that is named 3 so far and then named 4. -/
def sharedAtFirst : Snapshot := namesGiven [("1", "23"), ("12", "4")]

def namedTwice : Snapshot := namesGiven [("7", "a"), ("7", "b")]

theorem restore_twice_sharedSeries :
    let empty := performAll {} []
    let named := performAll {} namedThree
    let once := (empty.restore sharedAtLast).1
    let twice := (once.restore sharedAtLast).1
    (once.info.get? "123unknownunknown" = some ⟨"1", ⟨"23", "", "unknown", "unknown"⟩⟩ ∧
      twice.info.get? "123unknownunknown" = some ⟨"12", ⟨"3", "", "unknown", "unknown"⟩⟩ ∧
      (twice.restore sharedAtLast).1.info.get? "123unknownunknown" =
        some ⟨"12", ⟨"3", "", "unknown", "unknown"⟩⟩) ∧
    (¬ ∀ k, ((named.restore sharedAtFirst).1.restore sharedAtFirst).1.info.get? k =
      (named.restore sharedAtFirst).1.info.get? k) ∧
    empty.IsApart namedTwice.given ∧
      (empty.restore namedTwice).1.info.get? "7bunknownunknown" =
        some ⟨"7", ⟨"b", "", "unknown", "unknown"⟩⟩ ∧
      ∀ k, ((empty.restore namedTwice).1.restore namedTwice).1.info.get? k =
        (empty.restore namedTwice).1.info.get? k := by
  intro empty named once twice
  refine ⟨⟨by decide +kernel, by decide +kernel, ?_⟩, ?_, ?_⟩
  · obtain ⟨_, _, _, _, _, _, hthird⟩ := restore_twice [] sharedAtLast
    exact (hthird _).trans (by decide +kernel)
  · intro hsame
    obtain ⟨_, _, _, _, _, hexact, _⟩ := restore_twice namedThree sharedAtFirst
    have hshown := (hexact (by decide +kernel)).mp hsame
      ("1", ⟨"23", "", "unknown", "unknown"⟩) (by decide +kernel)
    exact absurd hshown (by decide +kernel)
  · obtain ⟨_, _, _, _, hapart, _, _⟩ := restore_twice [] namedTwice
    have hknown : ∀ l, (performAll {} []).Knows namedTwice.given l → l.node = "7" := by
      have hnodes : ∀ g ∈ namedTwice.given, g.1 = "7" := by decide +kernel
      rintro l (hlatest | hgiven)
      · cases hlatest
      · exact hnodes _ hgiven
    have hnone : (performAll {} []).IsApart namedTwice.given :=
      fun a b ha hb _ => (hknown a ha).trans (hknown b hb).symm
    exact ⟨hnone, by decide +kernel, hapart hnone⟩

end Store
end MeshTelemetry
