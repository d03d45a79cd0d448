import MeshTelemetry.Metrics.Persistence
import MeshTelemetry.Proofs.Files.Replacing
import MeshTelemetry.Proofs.Metrics.SnapshotText

/-! Saving and reading back. After a save that succeeds the path holds the whole text
of the snapshot, and reading it gives what that text gives. -/

set_option autoImplicit false

namespace MeshTelemetry

theorem FileSystem.takeAll_cons {fs fs' : FileSystem} {step : Step} {steps : List Step}
    (h : fs.takeAll (step :: steps) = (fs', .ok ())) :
    ∃ middle, fs.take step = (middle, .ok ()) ∧ middle.takeAll steps = (fs', .ok ()) := by
  rw [takeAll] at h
  split at h
  · rename_i middle hstep
    exact ⟨middle, hstep, h⟩
  · cases h

theorem FileSystem.write_of_take {fs fs' : FileSystem} {p : FilePath} {content : ByteArray}
    (h : fs.take (.write p content) = (fs', .ok ())) : fs.write p content = .ok fs' := by
  rw [take] at h
  split at h
  · rename_i written hwrite
    cases h
    exact hwrite
  · cases h

theorem FileSystem.rename_of_take {fs fs' : FileSystem} {source target : FilePath}
    (h : fs.take (.rename source target) = (fs', .ok ())) : fs.rename source target = .ok fs' := by
  rw [take] at h
  split at h
  · rename_i renamed hrename
    cases h
    exact hrename
  · cases h

/-- A snapshot's text has a brace in it. -/
theorem Snapshot.toText_not_blank (s : Snapshot) : Text.isBlankText s.toText = false := by
  have hbrace : '\x7b' ∈ s.toText.toList := by
    rw [toText, toJson, Json.pretty, Json.writePretty]
    have hopen : '\x7b' ∈ ("" ++ "\x7b").toList := List.mem_singleton_self _
    have hkey := Json.mem_append_left (Json.mem_append_left (Json.mem_append_left hopen
      (Json.newLine (0 + 1))) (Json.quote "version")) ": "
    have hrest := Json.mem_writePrettyMembers
      [("timestamp", .number (.int s.timestamp)), ("nodes", .array (s.nodes.map NodeSnapshot.toJson))]
      (0 + 1) (Json.mem_writePretty (.string s.version) (0 + 1) hkey)
    exact Json.mem_append_left (Json.mem_append_left hrest _) _
  rw [Text.isBlankText, List.all_eq_false]
  exact ⟨'\x7b', hbrace, by decide⟩

namespace Persistence

variable {fs fs' : FileSystem} {path : String} {s : Store} {now : Int}

theorem steps_of_save (hpath : Text.isBlankText path = false)
    (h : save fs path s now = (fs', .ok ())) :
    ∃ made written : FileSystem,
      made.write (temporary (FilePath.ofString path)) (s.snapshot now).toText.toUTF8 = .ok written ∧
      written.rename (temporary (FilePath.ofString path)) (FilePath.ofString path) = .ok fs' := by
  rw [save, hpath, if_neg (by decide)] at h
  have hsteps : fs.takeAll (saveSteps (FilePath.ofString path) (s.snapshot now).toText) =
      (fs', .ok ()) := by
    generalize fs.takeAll _ = taken at h
    obtain ⟨files, result⟩ := taken
    obtain ⟨hfiles, hresult⟩ := Prod.mk.inj h
    cases result with
    | error e => cases hresult
    | ok u => exact Prod.ext hfiles rfl
  obtain ⟨made, _, hsteps⟩ := FileSystem.takeAll_cons hsteps
  obtain ⟨written, hwrite, hsteps⟩ := FileSystem.takeAll_cons hsteps
  obtain ⟨renamed, hrename, hdone⟩ := FileSystem.takeAll_cons hsteps
  cases hdone
  exact ⟨made, written, FileSystem.write_of_take hwrite, FileSystem.rename_of_take hrename⟩

theorem read_path_of_save (hpath : Text.isBlankText path = false)
    (h : save fs path s now = (fs', .ok ())) :
    fs'.read (FilePath.ofString path) = .ok (s.snapshot now).toText.toUTF8 := by
  obtain ⟨made, written, hwrite, hrename⟩ := steps_of_save hpath h
  exact FileSystem.read_of_rename (FileSystem.read_of_write hwrite) hrename

theorem read_of_save (hpath : Text.isBlankText path = false)
    (h : save fs path s now = (fs', .ok ())) :
    read fs' path =
      match Snapshot.ofText (s.snapshot now).toText with
      | .ok snapshot => .ok (some snapshot)
      | .error _ => .error .json := by
  have hread := read_path_of_save hpath h
  have hcontains := FileSystem.contains_of_read hread
  have htext := FileSystem.readText_of_read hread
  have hexists : (fs'.contains (FilePath.ofString path)).mapError ProcessingError.io = .ok true := by
    rw [hcontains]
    rfl
  have hwhole : (fs'.readText (FilePath.ofString path)).mapError ProcessingError.io =
      .ok (s.snapshot now).toText := by
    rw [htext]
    rfl
  unfold read
  simp only [hpath, hexists, hwhole, Snapshot.toText_not_blank, bind, Except.bind]
  cases Snapshot.ofText (s.snapshot now).toText <;> rfl

end Persistence
end MeshTelemetry
