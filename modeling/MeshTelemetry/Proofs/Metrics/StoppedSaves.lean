import MeshTelemetry.Proofs.Files.Stopping
import MeshTelemetry.Proofs.Metrics.Persistence
import MeshTelemetry.Service.Bench

/-! Saves that stop part way. The temporary file never has the name of the file it
stands in for, so until it is renamed over that file nothing has touched it, and wherever
a save stops the file holds its old content or the whole of the new one. Only a path at
which nothing was, because a directory on its way was missing, may be read otherwise: the
save makes that directory, and the way goes on from there. -/

set_option autoImplicit false

namespace MeshTelemetry

namespace Persistence

open FileSystem

variable {fs fs' : FileSystem} {p : FilePath} {text : String}

theorem place_temporary_ne {n : String} (hname : p.parts.getLast? = some (.name n)) :
    (temporary p).place ≠ p.place :=
  FilePath.place_withExtension_ne hname (by decide)

example : (temporary (.ofString "mesh/.json")).place = ["mesh", ".json.json.tmp"] := by decide

example : temporary (.ofString "mesh/..ab") = .ofString "mesh/.." := by decide

theorem filePlace?_temporary_ne (p : FilePath) : (temporary p).filePlace? ≠ some p.place := by
  intro h
  obtain ⟨hplace, n, hlast⟩ := FilePath.filePlace?_eq_some_iff.mp h
  by_cases hname : ∃ n, p.parts.getLast? = some (.name n)
  · obtain ⟨k, hname⟩ := hname
    exact place_temporary_ne hname hplace
  · rw [temporary, FilePath.withExtension_of_no_name (not_exists.mp hname)] at hlast
    exact hname ⟨n, hlast⟩

theorem length_filePlace?_temporary {l : Location} (h : (temporary p).filePlace? = some l) :
    l.length = p.parent.place.length + 1 := by
  obtain ⟨rfl, n, hname⟩ := FilePath.filePlace?_eq_some_iff.mp h
  rw [FilePath.place_of_name hname, temporary, FilePath.parent_withExtension, List.length_append,
    List.length_singleton]

/-- How a path is read at which nothing was, as something was missing on its way, once
directories were made there: the way may end at a name that is too long, or, if it goes up
again, at what cannot be read as a file or at a file that was there all along. -/
structure Opened (fs fs' : FileSystem) (p : FilePath) : Prop where
  missing : fs.locate p = .error .notFound
  reading : fs'.read p = .error .invalidName ∧ p.HasLongName ∨
    (fs.IsTree → .up ∈ p.parts) ∧
      (fs'.read p = .error .notADirectory ∨ fs'.read p = .error .isADirectory ∨
        ∃ content, fs.file? p.place = some content ∧ fs'.read p = .ok content)

section Unrenamed

variable {content : ByteArray} {l m : Location}
  (h : fs.Leaves [.makeDirectories p.parent, .write (temporary p) content] fs')
include h

theorem spared_of_unrenamed (hl : (temporary p).filePlace? ≠ some l) :
    fs.Spared fs' p.parent.way l := by
  have hspared := h.spared (l := l) (by simpa [Step.places] using hl)
  simpa [Step.made] using hspared

theorem keepsFiles_of_unrenamed : KeepsFiles fs fs' := h.keepsFiles (by simp [Step.isRename])

theorem read_of_located {t : Location} (hlocate : fs.locate p = .ok t) :
    fs'.read p = fs.read p := by
  have hlocate' := locate_of_keepsDirectories h.keepsDirectories hlocate
  have hsame : fs'.node? t = fs.node? t := by
    by_cases hdirectory : fs.node? t = some .directory
    · rw [hdirectory, h.keepsDirectories t hdirectory]
    · have htemporary := filePlace?_temporary_ne p
      rw [place_of_locate hlocate] at htemporary
      rcases spared_of_unrenamed h htemporary with hsame | ⟨hmade, hnone, -⟩
      · exact hsame
      · have hway := node?_of_mem_way (locate_eq_ok_iff.mp hlocate).2 hmade
        rw [hnone] at hway
        cases hway
  rw [read_of_locate hlocate, read_of_locate hlocate', hsame]

variable (tree : fs.IsTree) (hmissing : fs.locateFrom [] p.parts = .error .notFound)
include tree hmissing

/-- In a tree, a file on the way of a path at which nothing was is met only by going up. -/
theorem up_mem_of_file_on_way (hm : m ∈ p.parent.way) {found : ByteArray}
    (hfile : fs'.node? m = some (.file found)) : .up ∈ p.parts := by
  by_contra hdown
  obtain ⟨n, hconcat⟩ := place_of_missing hdown hmissing
  have habove := FilePath.prefix_place_of_mem_way_parent hdown hm
  have htemporary : (temporary p).filePlace? ≠ some m := fun hsame => by
    have hlength := length_filePlace?_temporary hsame
    have hle := habove.length_le
    omega
  have hbefore := (spared_of_unrenamed h htemporary).node?_of_file hfile
  have hplace : m <+: p.place := by
    rw [hconcat]
    exact habove.trans (List.prefix_append _ _)
  rcases tree.node?_of_missing hdown fs.node?_root hmissing m.nil_prefix hplace with
    hnone | ⟨hdirectory, -⟩
  · rw [hbefore] at hnone
    cases hnone
  · rw [hbefore] at hdirectory
    cases hdirectory

/-- In a tree, something is at the place of a path at which nothing was only if it goes up. -/
theorem up_mem_of_place (hplace : fs'.node? p.place ≠ none) : .up ∈ p.parts := by
  by_contra hdown
  obtain ⟨n, hconcat⟩ := place_of_missing hdown hmissing
  have hnone : fs.node? p.place = none := by
    rcases tree.node?_of_missing hdown fs.node?_root hmissing p.place.nil_prefix
      List.prefix_rfl with hnone | ⟨-, hother⟩
    · exact hnone
    · exact absurd rfl hother
  rcases spared_of_unrenamed h (filePlace?_temporary_ne p) with hsame | ⟨hmade, -⟩
  · exact hplace (hsame.trans hnone)
  · have habove := FilePath.prefix_place_of_mem_way_parent hdown hmade
    have hlength := habove.length_le
    rw [hconcat, List.length_append, List.length_singleton] at hlength
    omega

omit tree hmissing

theorem read_of_missing (hmissing : fs.locate p = .error .notFound) :
    fs'.read p = fs.read p ∨ Opened fs fs' p := by
  obtain ⟨husable, hway⟩ := locate_eq_notFound_iff.mp hmissing
  have hbefore := read_of_locate_error hmissing
  cases hlocate : fs'.locate p with
  | error e =>
    have hafter := read_of_locate_error hlocate
    rw [locate, if_pos husable] at hlocate
    rcases locateFrom_error_cases hlocate with rfl | ⟨rfl, m, hm, found, hfile⟩ | ⟨rfl, hlong⟩
    · exact .inl (hafter.trans hbefore.symm)
    · have hup (tree : fs.IsTree) := up_mem_of_file_on_way h tree hway hm hfile
      exact .inr ⟨hmissing, .inr ⟨hup, .inl hafter⟩⟩
    · exact .inr ⟨hmissing, .inl ⟨hafter, hlong⟩⟩
  | ok t =>
    have hafter := read_of_locate hlocate
    obtain rfl := place_of_locate hlocate
    cases hnode : fs'.node? p.place with
    | none =>
      rw [hnode] at hafter
      exact .inl (hafter.trans hbefore.symm)
    | some node =>
      have hthere : fs'.node? p.place ≠ none := by
        rw [hnode]
        exact Option.some_ne_none node
      have hup (tree : fs.IsTree) := up_mem_of_place h tree hway hthere
      rw [hnode] at hafter
      right
      refine ⟨hmissing, .inr ⟨hup, ?_⟩⟩
      cases node with
      | directory => exact .inr (.inl hafter)
      | file found =>
        have hfile := (spared_of_unrenamed h (filePlace?_temporary_ne p)).node?_of_file hnode
        cases hdirectory : p.namesDirectory with
        | true =>
          rw [hdirectory] at hafter
          exact .inl hafter
        | false =>
          rw [hdirectory] at hafter
          exact .inr (.inr ⟨found, file?_eq_some_iff.mpr hfile, hafter⟩)

/-- Until the temporary file is renamed, the file is read as it was, unless its way was
opened. -/
theorem read_of_unrenamed : fs'.read p = fs.read p ∨ Opened fs fs' p := by
  cases hlocate : fs.locate p with
  | ok t => exact .inl (read_of_located h hlocate)
  | error e =>
    by_cases hmissing : e = .notFound
    · exact read_of_missing h (hmissing ▸ hlocate)
    · have hlocate' :=
        locate_error_of_keeps h.keepsDirectories (keepsFiles_of_unrenamed h) hmissing hlocate
      exact .inl ((read_of_locate_error hlocate').trans (read_of_locate_error hlocate).symm)

end Unrenamed

/-- What a save may leave of the files, wherever it stops. The file has its old content or
the whole new one, unless its way was opened; nothing else is touched, but directories may
be made on the way; and what was a tree is one. -/
structure Harmless (fs fs' : FileSystem) (p : FilePath) (text : String) : Prop where
  reading : fs'.read p = fs.read p ∨ fs'.read p = .ok text.toUTF8 ∨ Opened fs fs' p
  others : ∀ l, l ≠ p.place → l ≠ (temporary p).place → fs.Spared fs' p.parent.way l
  isTree : fs.IsTree → fs'.IsTree

theorem read_of_leaves (h : fs.Leaves (saveSteps p text) fs') :
    fs'.read p = fs.read p ∨ fs'.read p = .ok text.toUTF8 ∨ Opened fs fs' p := by
  have hsteps : saveSteps p text =
      [.makeDirectories p.parent, .write (temporary p) text.toUTF8] ++ [.rename (temporary p) p] :=
    rfl
  rw [hsteps] at h
  rcases h.append with hfirst | ⟨written, hfirst, hlast⟩
  · exact (read_of_unrenamed hfirst).imp_right .inr
  · cases hlast.single with
    | nothing =>
      have hleaves := fs.leaves_takeAll [.makeDirectories p.parent, .write (temporary p) text.toUTF8]
      rw [hfirst] at hleaves
      exact (read_of_unrenamed hleaves).imp_right .inr
    | renamed hrename =>
      obtain ⟨made, -, hrest⟩ := takeAll_cons hfirst
      obtain ⟨_, hwrite, hdone⟩ := takeAll_cons hrest
      cases hdone
      exact .inr (.inl (read_of_rename (read_of_write (write_of_take hwrite)) hrename))

example : (save {} "x/../x" {} 0).1.read (.ofString "x/../x") = .error .isADirectory := by
  decide +kernel

theorem spared_of_leaves {l : Location} (h : fs.Leaves (saveSteps p text) fs') (hp : l ≠ p.place)
    (htemporary : l ≠ (temporary p).place) : fs.Spared fs' p.parent.way l := by
  have hplaces : l ∉ (saveSteps p text).flatMap Step.places := by
    simp only [saveSteps, Step.places, List.flatMap_cons, List.flatMap_nil, List.nil_append,
      List.append_nil, List.mem_append, Option.mem_toList, FilePath.filePlace?_eq_some_iff]
    rintro (⟨hsame, -⟩ | ⟨hsame, -⟩ | ⟨hsame, -⟩)
    · exact htemporary hsame.symm
    · exact htemporary hsame.symm
    · exact hp hsame.symm
  have hspared := h.spared hplaces
  simpa [saveSteps, Step.made] using hspared

theorem harmless_of_leaves (h : fs.Leaves (saveSteps p text) fs') : Harmless fs fs' p text where
  reading := read_of_leaves h
  others := fun _ => spared_of_leaves h
  isTree := h.isTree

theorem no_temporary_of_save {path : String} {s : Store} {now : Int}
    (hpath : Text.isBlankText path = false) (h : save fs path s now = (fs', .ok ())) :
    fs'.contains (temporary (FilePath.ofString path)) = .ok false := by
  obtain ⟨made, written, hwrite, hrename⟩ := steps_of_save hpath h
  obtain ⟨t, hlocate, hnode⟩ := node?_of_read (read_path_of_save hpath h)
  obtain ⟨-, n, hname⟩ :=
    FilePath.filePlace?_eq_some_iff.mp (filePlace?_of_locate hlocate (not_directory_of_file hnode))
  exact contains_source_of_rename hrename (place_temporary_ne hname)

/-- A save stops somewhere in its steps, at their end if it succeeds. -/
theorem leaves_save {path : String} (hpath : Text.isBlankText path = false) (s : Store)
    (now : Int) :
    fs.Leaves (saveSteps (FilePath.ofString path) (s.snapshot now).toText)
      (save fs path s now).1 := by
  rw [save, hpath, if_neg (by decide)]
  exact fs.leaves_takeAll _

end Persistence

namespace Bench

open Persistence

/-- Wherever a save stops it is harmless; it stops somewhere in its steps, whether it
fails or succeeds, and changes nothing but the files; and if it succeeds, the file holds
the whole snapshot and no temporary file is left. -/
theorem save_harmless (b : Bench) (now : Int) {path : String}
    (hpath : Text.isBlankText path = false) :
    let p := FilePath.ofString path
    let text := (b.exporter.store.snapshot now).toText
    (∀ fs', b.files.Leaves (saveSteps p text) fs' → Harmless b.files fs' p text) ∧
      (∃ fs', b.files.Leaves (saveSteps p text) fs' ∧ (b.save now path).1 = { b with files := fs' }) ∧
      ((b.save now path).2 = .ok () →
        (b.save now path).1.files.read p = .ok text.toUTF8 ∧
          (b.save now path).1.files.contains (temporary p) = .ok false) := by
  refine ⟨fun fs' => harmless_of_leaves, ⟨_, leaves_save hpath b.exporter.store now, rfl⟩, ?_⟩
  intro hok
  have hsave : Persistence.save b.files path b.exporter.store now =
      ((b.save now path).1.files, .ok ()) := Prod.ext rfl hok
  exact ⟨read_path_of_save hpath hsave, no_temporary_of_save hpath hsave⟩

def snapshotBench : Bench :=
  { files := ({ nodes := (∅ : Table Location FileNode).insert ["state"] .directory } :
      FileSystem).setFile ["state", "mesh.json"] "old".toUTF8 }

theorem save_harmless_halfWritten :
    let p := FilePath.ofString "state/mesh.json"
    let text := (snapshotBench.exporter.store.snapshot 0).toText
    let half := snapshotBench.files.setFile ["state", "mesh.json.tmp"] "\x7b".toUTF8
    snapshotBench.files.Leaves (saveSteps p text) half ∧ Harmless snapshotBench.files half p text ∧
      half.read p = .ok "old".toUTF8 := by
  intro p text half
  have hblank : Text.isBlankText "state/mesh.json" = false := by decide +kernel
  have hleaves : snapshotBench.files.Leaves (saveSteps p text) half := by
    have hmade : snapshotBench.files.take (.makeDirectories p.parent) =
        (snapshotBench.files, .ok ()) := by rfl
    exact .after hmade (.within _ (.bytes (by rfl) _ _))
  exact ⟨hleaves, (snapshotBench.save_harmless 0 hblank).1 half hleaves, by decide +kernel⟩

end Bench

/-- A file, and a directory in the place of its temporary file. -/
def blockedFiles : FileSystem :=
  { nodes := ((∅ : Table Location FileNode).insert ["x"] (.file "old".toUTF8)).insert
      ["x.json.tmp"] .directory }

/-- A save to a path that goes up out of a directory which is not there makes the directory.
The save fails, but the path, at which nothing was, is now read as another file. -/
theorem Persistence.save_made_way :
    let p := FilePath.ofString "new/../x"
    let saved := save blockedFiles "new/../x" {} 0
    Text.isBlankText "new/../x" = false ∧ saved.2 = .error (.io .isADirectory) ∧
      blockedFiles.read p = .error .notFound ∧ saved.1.read p = .ok "old".toUTF8 ∧
      ¬ (saved.1.read p = blockedFiles.read p ∨
        saved.1.read p = .ok (Store.snapshot {} 0).toText.toUTF8) := by
  decide +kernel

end MeshTelemetry
