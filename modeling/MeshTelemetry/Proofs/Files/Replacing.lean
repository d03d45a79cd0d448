import MeshTelemetry.Files.FileSystem

/-! Reading after writing. A file that was written or renamed into place is found by
the same path and holds what was put there: only the place of a file changes, so each
directory on the way is still one. -/

set_option autoImplicit false

namespace MeshTelemetry

theorem fromUTF8?_toUTF8 (s : String) : String.fromUTF8? s.toUTF8 = some s := by
  have hvalid : s.toUTF8.IsValidUTF8 := s.isValidUTF8
  rw [String.fromUTF8?, dif_pos hvalid]
  rfl

namespace FileSystem

variable {fs fs' : FileSystem}

theorem node?_root (fs : FileSystem) : fs.node? [] = some .directory := by
  rw [node?, if_pos rfl]

theorem node?_of_ne_root {l : Location} (h : l ≠ []) : fs.node? l = fs.nodes.get? l := by
  rw [node?, if_neg h]

theorem node?_setFile {t : Location} (ht : t ≠ []) (content : ByteArray) (l : Location) :
    (fs.setFile t content).node? l = if t = l then some (.file content) else fs.node? l := by
  by_cases hl : l = []
  · subst hl
    rw [node?_root, node?_root, if_neg ht]
  · rw [node?_of_ne_root hl, node?_of_ne_root hl, setFile, Table.get?_insert]

theorem node?_erase {t : Location} (ht : t ≠ []) (l : Location) :
    ({ fs with nodes := fs.nodes.erase t } : FileSystem).node? l =
      if t = l then none else fs.node? l := by
  by_cases hl : l = []
  · subst hl
    rw [node?_root, node?_root, if_neg ht]
  · rw [node?_of_ne_root hl, node?_of_ne_root hl, Table.get?_erase]

def KeepsDirectories (fs fs' : FileSystem) : Prop :=
  ∀ l, fs.node? l = some .directory → fs'.node? l = some .directory

theorem locateFrom_of_keepsDirectories (h : KeepsDirectories fs fs') {ps : List PathPart}
    {l t : Location} (hl : fs.locateFrom l ps = .ok t) : fs'.locateFrom l ps = .ok t := by
  induction ps generalizing l with
  | nil => exact hl
  | cons p ps ih =>
    cases p with
    | up => exact ih hl
    | name n =>
      rw [locateFrom] at hl ⊢
      split at hl
      · cases hl
      · rename_i hshort
        rw [if_neg hshort]
        split at hl
        · rename_i hlast
          rw [if_pos hlast]
          exact hl
        · rename_i hmore
          rw [if_neg hmore]
          split at hl
          · rename_i hdirectory
            rw [h _ hdirectory]
            exact ih hl
          · cases hl
          · cases hl

theorem locate_of_keepsDirectories (h : KeepsDirectories fs fs') {p : FilePath} {t : Location}
    (hp : fs.locate p = .ok t) : fs'.locate p = .ok t := by
  rw [locate] at hp ⊢
  split at hp
  · rename_i husable
    rw [if_pos husable]
    exact locateFrom_of_keepsDirectories h hp
  · cases hp

theorem read_of_locate_error {p : FilePath} {e : FileError} (hp : fs.locate p = .error e) :
    fs.read p = .error e := by
  rw [read, stat, hp]
  rfl

theorem read_of_locate {p : FilePath} {t : Location} (hp : fs.locate p = .ok t) :
    fs.read p =
      match fs.node? t with
      | none => .error .notFound
      | some .directory => .error .isADirectory
      | some (.file content) =>
        if p.namesDirectory then .error .notADirectory else .ok content := by
  simp only [read, stat, hp, bind, Except.bind]
  cases fs.node? t with
  | none => rfl
  | some node =>
    cases node with
    | directory => rfl
    | file content => cases p.namesDirectory <;> rfl

theorem read_of_node? {p : FilePath} {t : Location} {content : ByteArray}
    (hp : fs.locate p = .ok t) (ht : fs.node? t = some (.file content))
    (hfile : p.namesDirectory = false) : fs.read p = .ok content := by
  rw [read_of_locate hp, ht, hfile]
  rfl

theorem node?_of_read {p : FilePath} {content : ByteArray} (h : fs.read p = .ok content) :
    ∃ t, fs.locate p = .ok t ∧ fs.node? t = some (.file content) := by
  cases hp : fs.locate p with
  | error e =>
    rw [read_of_locate_error hp] at h
    cases h
  | ok t =>
    refine ⟨t, rfl, ?_⟩
    rw [read_of_locate hp] at h
    cases ht : fs.node? t with
    | none =>
      rw [ht] at h
      cases h
    | some node =>
      rw [ht] at h
      cases node with
      | directory => cases h
      | file found =>
        simp only at h
        split at h
        · cases h
        · cases h
          rfl

theorem locateFile_spec {p : FilePath} {t : Location} (h : fs.locateFile p = .ok t) :
    fs.locate p = .ok t ∧ fs.node? t ≠ some .directory ∧ p.namesDirectory = false := by
  unfold locateFile at h
  cases hp : fs.locate p with
  | error e =>
    rw [hp] at h
    cases h
  | ok l =>
    simp only [hp, bind, Except.bind] at h
    split at h
    · cases h
    · rename_i hnode
      split at h
      · cases h
      · rename_i hfile
        cases h
        exact ⟨rfl, fun hdirectory => hnode hdirectory, by simpa using hfile⟩

theorem ne_root_of_node? {t : Location} (ht : fs.node? t ≠ some .directory) : t ≠ [] := by
  rintro rfl
  exact ht fs.node?_root

theorem not_directory_of_file {t : Location} {content : ByteArray}
    (ht : fs.node? t = some (.file content)) : fs.node? t ≠ some .directory := by
  rw [ht]
  nofun

theorem keepsDirectories_setFile {t : Location} (ht : fs.node? t ≠ some .directory)
    (content : ByteArray) : KeepsDirectories fs (fs.setFile t content) := by
  intro l hl
  rw [node?_setFile (ne_root_of_node? ht)]
  split
  · rename_i heq
    rw [heq] at ht
    exact absurd hl ht
  · exact hl

theorem keepsDirectories_erase {t : Location} (ht : fs.node? t ≠ some .directory) :
    KeepsDirectories fs { fs with nodes := fs.nodes.erase t } := by
  intro l hl
  rw [node?_erase (ne_root_of_node? ht)]
  split
  · rename_i heq
    rw [heq] at ht
    exact absurd hl ht
  · exact hl

theorem write_eq_ok {p : FilePath} {content : ByteArray} (h : fs.write p content = .ok fs') :
    ∃ t, fs.locateFile p = .ok t ∧ fs' = fs.setFile t content := by
  unfold write at h
  cases hp : fs.locateFile p with
  | error e =>
    rw [hp] at h
    cases h
  | ok t =>
    rw [hp] at h
    cases h
    exact ⟨t, rfl, rfl⟩

theorem read_of_write {p : FilePath} {content : ByteArray} (h : fs.write p content = .ok fs') :
    fs'.read p = .ok content := by
  obtain ⟨t, hp, rfl⟩ := write_eq_ok h
  obtain ⟨hlocate, ht, hfile⟩ := locateFile_spec hp
  have hkeeps := keepsDirectories_setFile ht content
  apply read_of_node? (locate_of_keepsDirectories hkeeps hlocate) _ hfile
  rw [node?_setFile (ne_root_of_node? ht), if_pos rfl]

/-- A renaming moves a file, or leaves one that is in place already. -/
theorem rename_eq_ok {source target : FilePath} (h : fs.rename source target = .ok fs') :
    ∃ content s t, fs.read source = .ok content ∧ fs.locate source = .ok s ∧
      fs.node? s = some (.file content) ∧ fs.locateFile target = .ok t ∧
      (s = t ∧ fs' = fs ∨
        s ≠ t ∧ fs' = ({ fs with nodes := fs.nodes.erase s } : FileSystem).setFile t content) := by
  unfold rename at h
  cases hcontent : fs.read source with
  | error e =>
    rw [hcontent] at h
    cases h
  | ok content =>
    obtain ⟨s, hs, hnode⟩ := node?_of_read hcontent
    cases htarget : fs.locateFile target with
    | error e =>
      simp only [hcontent, hs, htarget, bind, Except.bind] at h
      cases h
    | ok t =>
      refine ⟨content, s, t, rfl, hs, hnode, rfl, ?_⟩
      simp only [hcontent, hs, htarget, bind, Except.bind] at h
      split at h
      · rename_i hsame
        cases h
        exact .inl ⟨hsame, rfl⟩
      · rename_i hother
        cases h
        exact .inr ⟨hother, rfl⟩

theorem not_directory_erase {s t : Location} (hs : fs.node? s ≠ some .directory)
    (ht : fs.node? t ≠ some .directory) :
    ({ fs with nodes := fs.nodes.erase s } : FileSystem).node? t ≠ some .directory := by
  rw [node?_erase (ne_root_of_node? hs)]
  split
  · nofun
  · exact ht

theorem keepsDirectories_move {s t : Location} (hs : fs.node? s ≠ some .directory)
    (ht : fs.node? t ≠ some .directory) (content : ByteArray) :
    KeepsDirectories fs
      (({ fs with nodes := fs.nodes.erase s } : FileSystem).setFile t content) :=
  fun l hl => keepsDirectories_setFile (not_directory_erase hs ht) content l
    (keepsDirectories_erase hs l hl)

theorem read_of_rename {source target : FilePath} {content : ByteArray}
    (hcontent : fs.read source = .ok content) (h : fs.rename source target = .ok fs') :
    fs'.read target = .ok content := by
  obtain ⟨found, s, t, hfound, hs, hnode, htarget, hmoved⟩ := rename_eq_ok h
  rw [hcontent] at hfound
  cases hfound
  obtain ⟨hlocate, ht, hfile⟩ := locateFile_spec htarget
  rcases hmoved with ⟨rfl, rfl⟩ | ⟨-, rfl⟩
  · exact read_of_node? hlocate hnode hfile
  · have hkeeps := keepsDirectories_move (not_directory_of_file hnode) ht content
    apply read_of_node? (locate_of_keepsDirectories hkeeps hlocate) _ hfile
    rw [node?_setFile (ne_root_of_node? ht), if_pos rfl]

theorem contains_of_read {p : FilePath} {content : ByteArray} (h : fs.read p = .ok content) :
    fs.contains p = .ok true := by
  unfold read at h
  unfold contains
  cases hp : fs.stat p with
  | error e =>
    rw [hp] at h
    cases h
  | ok node => rfl

theorem readText_of_read {p : FilePath} {text : String} (h : fs.read p = .ok text.toUTF8) :
    fs.readText p = .ok text := by
  unfold readText
  simp only [h, bind, Except.bind, fromUTF8?_toUTF8]
  rfl

end FileSystem
end MeshTelemetry
