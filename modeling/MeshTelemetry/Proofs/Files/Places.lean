import Mathlib.Data.List.Induction
import MeshTelemetry.Proofs.Files.Replacing

/-! Where paths lead. There are no links, so the parts of a path alone give its place;
the file system decides only whether the way there is open. -/

set_option autoImplicit false

namespace MeshTelemetry

namespace FilePath

def placeFrom (l : Location) : List PathPart → Location
  | [] => l
  | .up :: ps => placeFrom l.dropLast ps
  | .name n :: ps => placeFrom (l ++ [n]) ps

def place (p : FilePath) : Location := placeFrom [] p.parts

/-- The locations that the names among parts lead to, one after another. -/
def wayFrom (l : Location) : List PathPart → List Location
  | [] => []
  | .up :: ps => wayFrom l.dropLast ps
  | .name n :: ps => (l ++ [n]) :: wayFrom (l ++ [n]) ps

def way (p : FilePath) : List Location := wayFrom [] p.parts

/-- The place of the file that a path may name. One that ends in no name can only name a
directory. -/
def filePlace? (p : FilePath) : Option Location :=
  match p.parts.getLast? with
  | some (.name _) => some p.place
  | _ => none

def HasLongName (p : FilePath) : Prop := ∃ n, .name n ∈ p.parts ∧ maxNameBytes < n.utf8ByteSize

theorem placeFrom_append (l : Location) (ps qs : List PathPart) :
    placeFrom l (ps ++ qs) = placeFrom (placeFrom l ps) qs := by
  induction ps generalizing l with
  | nil => rfl
  | cons p ps ih => cases p <;> exact ih _

theorem placeFrom_concat (l : Location) (ps : List PathPart) (n : String) :
    placeFrom l (ps ++ [.name n]) = placeFrom l ps ++ [n] := by
  rw [placeFrom_append, placeFrom, placeFrom]

theorem wayFrom_append (l : Location) (ps qs : List PathPart) :
    wayFrom l (ps ++ qs) = wayFrom l ps ++ wayFrom (placeFrom l ps) qs := by
  induction ps generalizing l with
  | nil => rfl
  | cons p ps ih =>
    cases p with
    | up => exact ih _
    | name n => exact congrArg (List.cons (l ++ [n])) (ih _)

theorem place_of_name {p : FilePath} {n : String} (hname : p.parts.getLast? = some (.name n)) :
    p.place = p.parent.place ++ [n] := by
  obtain ⟨ps, hparts⟩ := List.getLast?_eq_some_iff.mp hname
  rw [place, place, parent, hparts, List.dropLast_concat, placeFrom_concat]

theorem filePlace?_eq_some_iff {p : FilePath} {l : Location} :
    p.filePlace? = some l ↔ p.place = l ∧ ∃ n, p.parts.getLast? = some (.name n) := by
  rw [filePlace?]
  split
  · rename_i n hname
    rw [Option.some.injEq]
    exact ⟨fun h => ⟨h, n, hname⟩, And.left⟩
  · rename_i hnone
    exact ⟨nofun, fun ⟨_, n, hname⟩ => absurd hname (hnone n)⟩

/-! Paths that never go up -/

theorem prefix_placeFrom {ps : List PathPart} (hdown : .up ∉ ps) (l : Location) :
    l <+: placeFrom l ps := by
  induction ps generalizing l with
  | nil => exact List.prefix_rfl
  | cons p ps ih =>
    cases p with
    | up => exact absurd List.mem_cons_self hdown
    | name n =>
      exact (List.prefix_append l [n]).trans (ih (fun h => hdown (List.mem_cons_of_mem _ h)) _)

theorem prefix_of_mem_wayFrom {ps : List PathPart} (hdown : .up ∉ ps) {l m : Location}
    (hm : m ∈ wayFrom l ps) : m <+: placeFrom l ps := by
  induction ps generalizing l with
  | nil => cases hm
  | cons p ps ih =>
    cases p with
    | up => exact absurd List.mem_cons_self hdown
    | name n =>
      have hrest : .up ∉ ps := fun h => hdown (List.mem_cons_of_mem _ h)
      rcases List.mem_cons.mp hm with rfl | hlater
      · exact prefix_placeFrom hrest _
      · exact ih hrest hlater

theorem up_notMem_parent {p : FilePath} (hdown : .up ∉ p.parts) : .up ∉ p.parent.parts :=
  fun h => hdown (List.dropLast_subset _ h)

theorem prefix_place_of_mem_way_parent {p : FilePath} (hdown : .up ∉ p.parts) {m : Location}
    (hm : m ∈ p.parent.way) : m <+: p.parent.place :=
  prefix_of_mem_wayFrom (up_notMem_parent hdown) hm

/-- A path that never goes up leads nowhere or ends in a name. -/
theorem name_of_down {p : FilePath} (hdown : .up ∉ p.parts) (hparts : p.parts ≠ []) :
    ∃ n, p.parts.getLast? = some (.name n) := by
  cases hlast : p.parts.getLast? with
  | none => exact absurd (List.getLast?_eq_none_iff.mp hlast) hparts
  | some part =>
    cases part with
    | up => exact absurd (List.mem_of_getLast? hlast) hdown
    | name n => exact ⟨n, rfl⟩

/-! Names and extensions -/

/-- A name is its stem, or its stem with an extension that has no dot in it. -/
theorem stem_spec (name : List Char) :
    stem name = name ∨ ∃ extension, '.' ∉ extension ∧ name = stem name ++ '.' :: extension := by
  rw [stem]
  split
  · exact .inl rfl
  · exact .inl rfl
  · rename_i c before _ hdrop
    right
    have hdot : c = '.' := by
      have hhead := List.head?_dropWhile_not (fun c => c != '.') name.reverse
      rw [hdrop] at hhead
      simpa using hhead
    have hsplit := List.takeWhile_append_dropWhile (p := fun c => c != '.') (l := name.reverse)
    refine ⟨(name.reverse.takeWhile fun c => c != '.').reverse, ?_, ?_⟩
    · intro hmem
      have hall := List.all_takeWhile (p := fun c => c != '.') (l := name.reverse)
      exact absurd (List.all_eq_true.mp hall _ (List.mem_reverse.mp hmem)) (by decide)
    · have hname := congrArg List.reverse hsplit
      rw [hdrop, hdot, List.reverse_append, List.reverse_cons, List.append_assoc,
        List.reverse_reverse] at hname
      exact hname.symm

/-- An extension with a dot in it is never the one that a name has already. -/
theorem stem_append_ne {name extension : List Char} (h : '.' ∈ extension) :
    stem name ++ '.' :: extension ≠ name := by
  intro heq
  rcases stem_spec name with hwhole | ⟨former, hdotless, hformer⟩
  · rw [hwhole] at heq
    exact absurd (List.append_right_eq_self.mp heq) (by nofun)
  · have hsame := List.append_cancel_left (heq.trans hformer)
    exact hdotless ((List.cons.inj hsame).2 ▸ h)

theorem parent_withExtension (p : FilePath) (extension : String) :
    (p.withExtension extension).parent = p.parent := by
  simp only [withExtension]
  split
  · split
    · rw [parent, List.dropLast_concat, parent]
    · rw [parent, List.dropLast_concat, parent]
  · rfl

theorem withExtension_of_no_name {p : FilePath} (hlast : ∀ n, p.parts.getLast? ≠ some (.name n))
    (extension : String) : p.withExtension extension = p := by
  rw [withExtension]
  split
  · rename_i n hname
    exact absurd hname (hlast n)
  · rfl

/-- A path whose extension is replaced by one with a dot in it leads elsewhere. -/
theorem place_withExtension_ne {p : FilePath} {n extension : String}
    (hname : p.parts.getLast? = some (.name n)) (h : '.' ∈ extension.toList) :
    (p.withExtension extension).place ≠ p.place := by
  rw [place_of_name hname]
  intro heq
  simp only [withExtension, hname] at heq
  split at heq
  · -- the way leads up, not further down
    rw [place, placeFrom_append, placeFrom, placeFrom] at heq
    change p.parent.place.dropLast = p.parent.place ++ [n] at heq
    have hlength := congrArg List.length heq
    rw [List.length_dropLast, List.length_append, List.length_singleton] at hlength
    omega
  · rw [place, placeFrom_concat] at heq
    have hsame := congrArg String.toList (List.singleton_inj.mp (List.append_cancel_left heq))
    rw [String.toList_append, String.toList_append, String.toList_ofList, List.append_assoc] at hsame
    exact stem_append_ne h hsame

end FilePath

namespace FileSystem

variable {fs fs' : FileSystem} {p : FilePath} {ps : List PathPart} {l t : Location}

theorem locateFrom_name_eq_ok {n : String} :
    fs.locateFrom l (.name n :: ps) = .ok t ↔ n.utf8ByteSize ≤ maxNameBytes ∧
      (ps = [] ∧ t = l ++ [n] ∨
        ps ≠ [] ∧ fs.node? (l ++ [n]) = some .directory ∧
          fs.locateFrom (l ++ [n]) ps = .ok t) := by
  rw [locateFrom]
  by_cases hlong : maxNameBytes < n.utf8ByteSize
  · rw [if_pos hlong]
    constructor
    · intro h
      cases h
    · rintro ⟨hshort, -⟩
      omega
  · rw [if_neg hlong]
    by_cases hlast : ps = []
    · rw [if_pos hlast, Except.ok.injEq]
      constructor
      · rintro rfl
        exact ⟨by omega, .inl ⟨hlast, rfl⟩⟩
      · rintro ⟨-, ⟨-, rfl⟩ | ⟨hmore, -⟩⟩
        · rfl
        · exact absurd hlast hmore
    · rw [if_neg hlast]
      constructor
      · intro h
        split at h
        · rename_i hdirectory
          exact ⟨by omega, .inr ⟨hlast, hdirectory, h⟩⟩
        · cases h
        · cases h
      · rintro ⟨-, ⟨hnil, -⟩ | ⟨-, hdirectory, h⟩⟩
        · exact absurd hnil hlast
        · rw [hdirectory]
          exact h

theorem locateFrom_name_eq_error {n : String} {e : FileError} :
    fs.locateFrom l (.name n :: ps) = .error e ↔
      maxNameBytes < n.utf8ByteSize ∧ e = .invalidName ∨
        n.utf8ByteSize ≤ maxNameBytes ∧ ps ≠ [] ∧
          (fs.node? (l ++ [n]) = none ∧ e = .notFound ∨
            (∃ content, fs.node? (l ++ [n]) = some (.file content)) ∧ e = .notADirectory ∨
            fs.node? (l ++ [n]) = some .directory ∧ fs.locateFrom (l ++ [n]) ps = .error e) := by
  rw [locateFrom]
  by_cases hlong : maxNameBytes < n.utf8ByteSize
  · have hnot : ¬ n.utf8ByteSize ≤ maxNameBytes := by omega
    simp only [hlong, hnot, if_true, true_and, false_and, or_false, Except.error.injEq, eq_comm]
  · have hshort : n.utf8ByteSize ≤ maxNameBytes := by omega
    by_cases hlast : ps = []
    · simp [hlong, hlast]
    · simp only [hlong, hlast, hshort, if_false, false_and, false_or, true_and, ne_eq,
        not_false_eq_true]
      cases hnode : fs.node? (l ++ [n]) with
      | none => simp [eq_comm]
      | some node => cases node <;> simp [eq_comm]

theorem placeFrom_of_locateFrom (h : fs.locateFrom l ps = .ok t) : FilePath.placeFrom l ps = t := by
  induction ps generalizing l with
  | nil =>
    cases h
    rfl
  | cons p ps ih =>
    cases p with
    | up => exact ih h
    | name n =>
      obtain ⟨-, ⟨rfl, rfl⟩ | ⟨-, -, hrest⟩⟩ := locateFrom_name_eq_ok.mp h
      · rfl
      · exact ih hrest

/-- All that a way leads through before its end is directories. -/
theorem node?_of_mem_way (h : fs.locateFrom l ps = .ok t) {m : Location}
    (hm : m ∈ FilePath.wayFrom l ps.dropLast) : fs.node? m = some .directory := by
  induction ps generalizing l with
  | nil => cases hm
  | cons p ps ih =>
    cases p with
    | up =>
      cases ps with
      | nil => cases hm
      | cons q ps => exact ih h hm
    | name n =>
      obtain ⟨-, ⟨rfl, -⟩ | ⟨hmore, hdirectory, h⟩⟩ := locateFrom_name_eq_ok.mp h
      · cases hm
      · rw [List.dropLast_cons_of_ne_nil hmore] at hm
        rcases List.mem_cons.mp hm with rfl | hlater
        · exact hdirectory
        · exact ih h hlater

theorem locateFrom_error_cases {e : FileError} (h : fs.locateFrom l ps = .error e) :
    e = .notFound ∨
      (e = .notADirectory ∧
        ∃ m ∈ FilePath.wayFrom l ps.dropLast, ∃ content, fs.node? m = some (.file content)) ∨
      (e = .invalidName ∧ ∃ n, .name n ∈ ps ∧ maxNameBytes < n.utf8ByteSize) := by
  induction ps generalizing l with
  | nil => cases h
  | cons p ps ih =>
    cases p with
    | up =>
      rcases ih h with hmissing | ⟨hfile, m, hm, hcontent⟩ | ⟨hlong, n, hn, hbytes⟩
      · exact .inl hmissing
      · cases ps with
        | nil => cases hm
        | cons q ps => exact .inr (.inl ⟨hfile, m, hm, hcontent⟩)
      · exact .inr (.inr ⟨hlong, n, List.mem_cons_of_mem _ hn, hbytes⟩)
    | name n =>
      rcases locateFrom_name_eq_error.mp h with
        ⟨hbytes, rfl⟩ | ⟨-, hmore, ⟨-, rfl⟩ | ⟨hfile, rfl⟩ | ⟨-, hrest⟩⟩
      · exact .inr (.inr ⟨rfl, n, List.mem_cons_self, hbytes⟩)
      · exact .inl rfl
      · rw [List.dropLast_cons_of_ne_nil hmore]
        exact .inr (.inl ⟨rfl, l ++ [n], List.mem_cons_self, hfile⟩)
      · rw [List.dropLast_cons_of_ne_nil hmore]
        rcases ih hrest with hmissing | ⟨hfile, m, hm, hcontent⟩ | ⟨hlong, k, hk, hbytes⟩
        · exact .inl hmissing
        · exact .inr (.inl ⟨hfile, m, List.mem_cons_of_mem _ hm, hcontent⟩)
        · exact .inr (.inr ⟨hlong, k, List.mem_cons_of_mem _ hk, hbytes⟩)

theorem locate_eq_ok_iff :
    fs.locate p = .ok t ↔ p.isUsable = true ∧ fs.locateFrom [] p.parts = .ok t := by
  rw [locate]
  split
  · rename_i husable
    exact ⟨fun h => ⟨husable, h⟩, And.right⟩
  · rename_i hunusable
    constructor
    · intro h
      cases h
    · intro h
      exact absurd h.1 hunusable

theorem locate_eq_notFound_iff :
    fs.locate p = .error .notFound ↔
      p.isUsable = true ∧ fs.locateFrom [] p.parts = .error .notFound := by
  rw [locate]
  split
  · rename_i husable
    exact ⟨fun h => ⟨husable, h⟩, And.right⟩
  · rename_i hunusable
    constructor
    · intro h
      cases h
    · intro h
      exact absurd h.1 hunusable

theorem place_of_missing (hdown : .up ∉ p.parts)
    (hmissing : fs.locateFrom [] p.parts = .error .notFound) :
    ∃ n, p.place = p.parent.place ++ [n] := by
  have hparts : p.parts ≠ [] := fun hnil => by
    rw [hnil] at hmissing
    cases hmissing
  obtain ⟨n, hname⟩ := FilePath.name_of_down hdown hparts
  exact ⟨n, FilePath.place_of_name hname⟩

theorem place_of_locate (h : fs.locate p = .ok t) : p.place = t :=
  placeFrom_of_locateFrom (locate_eq_ok_iff.mp h).2

/-! Files and what is read of them -/

def file? (fs : FileSystem) (l : Location) : Option ByteArray :=
  match fs.node? l with
  | some (.file content) => some content
  | _ => none

theorem file?_eq_some_iff {content : ByteArray} :
    fs.file? l = some content ↔ fs.node? l = some (.file content) := by
  rw [file?]
  split
  · rename_i found hnode
    rw [hnode, Option.some.injEq, Option.some.injEq, FileNode.file.injEq]
  · rename_i hnone
    exact ⟨nofun, fun h => absurd h (hnone content)⟩

theorem contains_of_node?_none (hlocate : fs.locate p = .ok t) (ht : fs.node? t = none) :
    fs.contains p = .ok false := by
  have hstat : fs.stat p = .error .notFound := by
    simp only [stat, hlocate, bind, Except.bind, ht]
    rfl
  rw [contains, hstat]

/-- A file that was given another place is no longer where it was. -/
theorem contains_source_of_rename {source target : FilePath}
    (h : fs.rename source target = .ok fs') (hne : source.place ≠ target.place) :
    fs'.contains source = .ok false := by
  obtain ⟨content, s, t, -, hs, hnode, ht, hmoved⟩ := rename_eq_ok h
  obtain ⟨hlocate, hfile, -⟩ := locateFile_spec ht
  rw [place_of_locate hs, place_of_locate hlocate] at hne
  rcases hmoved with ⟨hsame, -⟩ | ⟨-, rfl⟩
  · exact absurd hsame hne
  · have hs' := not_directory_of_file hnode
    have hkeeps := keepsDirectories_move hs' hfile content
    apply contains_of_node?_none (locate_of_keepsDirectories hkeeps hs)
    rw [node?_setFile (ne_root_of_node? hfile), if_neg hne.symm,
      node?_erase (ne_root_of_node? hs'), if_pos rfl]

/-! Paths to no file -/

/-- Everything on the way down to a location, itself included, is a directory. -/
def Rooted (fs : FileSystem) (l : Location) : Prop :=
  ∀ m, m <+: l → fs.node? m = some .directory

theorem rooted_root (fs : FileSystem) : fs.Rooted [] := by
  intro m hm
  rw [List.prefix_nil.mp hm]
  exact fs.node?_root

theorem Rooted.dropLast (h : fs.Rooted l) : fs.Rooted l.dropLast :=
  fun m hm => h m (hm.trans (List.dropLast_prefix l))

theorem Rooted.concat {n : String} (h : fs.Rooted l) (hn : fs.node? (l ++ [n]) = some .directory) :
    fs.Rooted (l ++ [n]) := by
  intro m hm
  rcases List.prefix_concat_iff.mp hm with rfl | hbefore
  · exact hn
  · exact h m hbefore

theorem rooted_of_locateFrom (hlast : ∀ n, ps.getLast? ≠ some (.name n)) (hl : fs.Rooted l)
    (h : fs.locateFrom l ps = .ok t) : fs.Rooted t := by
  induction ps generalizing l with
  | nil =>
    cases h
    exact hl
  | cons p ps ih =>
    have hrest : ps ≠ [] → ∀ n, ps.getLast? ≠ some (.name n) := by
      intro hmore n
      rw [← List.getLast?_cons_of_ne_nil hmore]
      exact hlast n
    cases p with
    | up =>
      by_cases hmore : ps = []
      · subst hmore
        cases h
        exact hl.dropLast
      · exact ih (hrest hmore) hl.dropLast h
    | name n =>
      obtain ⟨-, ⟨rfl, -⟩ | ⟨hmore, hdirectory, h⟩⟩ := locateFrom_name_eq_ok.mp h
      · exact absurd rfl (hlast n)
      · exact ih (hrest hmore) (hl.concat hdirectory) h

theorem node?_place_of_no_name (hlast : ∀ n, p.parts.getLast? ≠ some (.name n))
    (h : fs.locate p = .ok t) : fs.node? t = some .directory :=
  rooted_of_locateFrom hlast fs.rooted_root (locate_eq_ok_iff.mp h).2 t List.prefix_rfl

/-- Where a path leads to no directory, it leads to the place of a file. -/
theorem filePlace?_of_locate (h : fs.locate p = .ok t) (ht : fs.node? t ≠ some .directory) :
    p.filePlace? = some t := by
  rw [FilePath.filePlace?_eq_some_iff]
  refine ⟨place_of_locate h, ?_⟩
  by_contra hlast
  rw [not_exists] at hlast
  exact ht (node?_place_of_no_name hlast h)

/-! Trees -/

def IsTree (fs : FileSystem) : Prop :=
  ∀ l n, fs.node? (l ++ [n]) ≠ none → fs.node? l = some .directory

theorem IsTree.node?_below (tree : fs.IsTree) (hl : fs.node? l = none) (h : l <+: t) :
    fs.node? t = none := by
  induction t using List.reverseRecOn with
  | nil => rwa [List.prefix_nil.mp h] at hl
  | append_singleton t n ih =>
    rcases List.prefix_concat_iff.mp h with rfl | hbefore
    · exact hl
    · by_contra hn
      have hdirectory := tree t n hn
      rw [ih hbefore] at hdirectory
      cases hdirectory

/-- In a tree, a path that never goes up and on whose way something is missing leads through
directories, and then through nothing. -/
theorem IsTree.node?_of_missing (tree : fs.IsTree) (hdown : .up ∉ ps)
    (hl : fs.node? l = some .directory) (h : fs.locateFrom l ps = .error .notFound) {m : Location}
    (hm : l <+: m) (hplace : m <+: FilePath.placeFrom l ps) :
    fs.node? m = none ∨ fs.node? m = some .directory ∧ m ≠ FilePath.placeFrom l ps := by
  induction ps generalizing l with
  | nil => cases h
  | cons p ps ih =>
    cases p with
    | up => exact absurd List.mem_cons_self hdown
    | name n =>
      have hrest : .up ∉ ps := fun h => hdown (List.mem_cons_of_mem _ h)
      have hbelow : l ++ [n] <+: FilePath.placeFrom l (.name n :: ps) :=
        FilePath.prefix_placeFrom hrest _
      have hnext : m = l ∨ l ++ [n] <+: m := by
        rcases List.prefix_or_prefix_of_prefix hplace hbelow with hbefore | hafter
        · rcases List.prefix_concat_iff.mp hbefore with rfl | hbefore
          · exact .inr List.prefix_rfl
          · exact .inl (hbefore.eq_of_length_le hm.length_le)
        · exact .inr hafter
      rcases hnext with rfl | hnext
      · refine .inr ⟨hl, fun hsame => ?_⟩
        have hlength := hbelow.length_le
        rw [← hsame, List.length_append, List.length_singleton] at hlength
        omega
      · rcases locateFrom_name_eq_error.mp h with
          ⟨-, hlong⟩ | ⟨-, -, ⟨hnone, -⟩ | ⟨-, hfile⟩ | ⟨hdirectory, h⟩⟩
        · cases hlong
        · exact .inl (tree.node?_below hnone hnext)
        · cases hfile
        · exact ih hrest hdirectory h hnext hplace

end FileSystem
end MeshTelemetry
