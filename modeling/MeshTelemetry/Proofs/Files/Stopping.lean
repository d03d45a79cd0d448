import MeshTelemetry.Proofs.Files.Places

/-! Steps that stop part way. A step may be stopped before it does anything, with some
of its directories made, or in the middle of a file; only a renaming is done or not done.
Wherever a run of steps stops, it has touched no file but those that its steps name, no
directory is lost, and a tree is still a tree. -/

set_option autoImplicit false

namespace MeshTelemetry.FileSystem

variable {fs middle fs' : FileSystem} {p : FilePath} {ps : List PathPart} {l t : Location}
  {step : Step} {steps : List Step}

def Step.places : Step → List Location
  | .makeDirectories _ => []
  | .write p _ => p.filePlace?.toList
  | .rename source target => source.filePlace?.toList ++ target.filePlace?.toList

def Step.made : Step → List Location
  | .makeDirectories p => p.way
  | _ => []

/-- What a step that is stopped, or fails, can leave. What a write has put in its file
by then may be anything. -/
inductive StepLeaves (fs : FileSystem) : Step → FileSystem → Prop
  | nothing (step : Step) : StepLeaves fs step fs
  | directories {p : FilePath} (husable : p.isUsable = true) (n : Nat) :
      StepLeaves fs (.makeDirectories p) (fs.makeDirectoriesFrom [] (p.parts.take n)).1
  | bytes {p : FilePath} {t : Location} (ht : fs.locateFile p = .ok t)
      (content written : ByteArray) : StepLeaves fs (.write p content) (fs.setFile t written)
  | renamed {source target : FilePath} {fs' : FileSystem} (h : fs.rename source target = .ok fs') :
      StepLeaves fs (.rename source target) fs'

/-- What steps taken in order can leave when they stop anywhere. -/
inductive Leaves : FileSystem → List Step → FileSystem → Prop
  | nil (fs : FileSystem) : Leaves fs [] fs
  | within {fs fs' : FileSystem} {step : Step} (steps : List Step) (h : fs.StepLeaves step fs') :
      Leaves fs (step :: steps) fs'
  | after {fs middle fs' : FileSystem} {step : Step} {steps : List Step}
      (hstep : fs.take step = (middle, .ok ())) (h : Leaves middle steps fs') :
      Leaves fs (step :: steps) fs'

theorem stepLeaves_take {result : Except FileError Unit} (h : fs.take step = (fs', result)) :
    fs.StepLeaves step fs' := by
  cases step with
  | makeDirectories p =>
    rw [take] at h
    split at h
    · rename_i husable
      have hall : fs.StepLeaves (.makeDirectories p)
          (fs.makeDirectoriesFrom [] (p.parts.take p.parts.length)).1 := .directories husable _
      rwa [List.take_length, h] at hall
    · cases h
      exact .nothing _
  | write p content =>
    rw [take] at h
    split at h
    · rename_i written hwrite
      cases h
      obtain ⟨t, ht, rfl⟩ := write_eq_ok hwrite
      exact .bytes ht content content
    · cases h
      exact .nothing _
  | rename source target =>
    rw [take] at h
    split at h
    · rename_i hrename
      cases h
      exact .renamed hrename
    · cases h
      exact .nothing _

theorem leaves_takeAll (fs : FileSystem) (steps : List Step) :
    fs.Leaves steps (fs.takeAll steps).1 := by
  induction steps generalizing fs with
  | nil => exact .nil fs
  | cons step steps ih =>
    rw [takeAll]
    split
    · rename_i middle htake
      exact .after htake (ih middle)
    · rename_i failed e htake
      exact .within steps (stepLeaves_take htake)

theorem Leaves.single (h : fs.Leaves [step] fs') : fs.StepLeaves step fs' := by
  cases h with
  | within _ hstep => exact hstep
  | after htake hrest =>
    cases hrest
    exact stepLeaves_take htake

theorem Leaves.induction {R : FileSystem → FileSystem → Prop} (refl : ∀ fs, R fs fs)
    (trans : ∀ {fs middle fs'}, R fs middle → R middle fs' → R fs fs')
    (hstep : ∀ step ∈ steps, ∀ {fs fs'}, StepLeaves fs step fs' → R fs fs')
    (h : fs.Leaves steps fs') : R fs fs' := by
  induction h with
  | nil fs => exact refl fs
  | within steps h => exact hstep _ List.mem_cons_self h
  | after htake _ ih =>
    have hfirst := hstep _ List.mem_cons_self (stepLeaves_take htake)
    exact trans hfirst (ih fun step hmem => hstep step (List.mem_cons_of_mem _ hmem))

/-- A run stops in its first part, or ends it and stops in the second. -/
theorem Leaves.append {first second : List Step} (h : fs.Leaves (first ++ second) fs') :
    fs.Leaves first fs' ∨
      ∃ middle, fs.takeAll first = (middle, .ok ()) ∧ middle.Leaves second fs' := by
  induction first generalizing fs with
  | nil => exact .inr ⟨fs, rfl, h⟩
  | cons step first ih =>
    cases h with
    | within _ hstep => exact .inl (.within first hstep)
    | after hstep hrest =>
      rcases ih hrest with hfirst | ⟨middle, hall, hsecond⟩
      · exact .inl (.after hstep hfirst)
      · refine .inr ⟨middle, ?_, hsecond⟩
        rw [takeAll, hstep]
        exact hall

/-! What is not named is spared -/

/-- A location is as it was, or nothing was there and it is now one of the directories that
were made. -/
def Spared (fs fs' : FileSystem) (made : List Location) (l : Location) : Prop :=
  fs'.node? l = fs.node? l ∨ l ∈ made ∧ fs.node? l = none ∧ fs'.node? l = some .directory

variable {made : List Location}

theorem Spared.refl (fs : FileSystem) (made : List Location) (l : Location) : fs.Spared fs made l :=
  .inl rfl

theorem Spared.trans (h : fs.Spared middle made l) (h' : middle.Spared fs' made l) :
    fs.Spared fs' made l := by
  rcases h with hsame | ⟨hl, hnone, hmade⟩
  · rw [Spared, ← hsame]
    exact h'
  · rcases h' with hsame | ⟨-, hgone, -⟩
    · exact .inr ⟨hl, hnone, hsame.trans hmade⟩
    · rw [hmade] at hgone
      cases hgone

theorem Spared.mono {more : List Location} (h : fs.Spared fs' made l) (hmade : made ⊆ more) :
    fs.Spared fs' more l :=
  h.imp_right fun ⟨hl, hrest⟩ => ⟨hmade hl, hrest⟩

theorem Spared.node? (h : fs.Spared fs' made l) {node : FileNode} (hl : fs.node? l = some node) :
    fs'.node? l = some node := by
  rcases h with hsame | ⟨-, hnone, -⟩
  · rw [hsame]
    exact hl
  · rw [hl] at hnone
    cases hnone

/-- No file is new where a location is spared. -/
theorem Spared.node?_of_file (h : fs.Spared fs' made l) {content : ByteArray}
    (hl : fs'.node? l = some (.file content)) : fs.node? l = some (.file content) := by
  rcases h with hsame | ⟨-, -, hmade⟩
  · exact hsame ▸ hl
  · rw [hl] at hmade
    cases hmade

theorem node?_insert_directory (fs : FileSystem) (l m : Location) :
    ({ fs with nodes := fs.nodes.insert l .directory } : FileSystem).node? m =
      if l = m then some .directory else fs.node? m := by
  by_cases hm : m = []
  · subst hm
    rw [node?_root, node?_root, ite_self]
  · rw [node?_of_ne_root hm, node?_of_ne_root hm, Table.get?_insert]

theorem spared_makeDirectoriesFrom (fs : FileSystem) (l : Location) (ps : List PathPart)
    (m : Location) : fs.Spared (fs.makeDirectoriesFrom l ps).1 (FilePath.wayFrom l ps) m := by
  induction ps generalizing fs l with
  | nil => exact .refl fs _ m
  | cons p ps ih =>
    cases p with
    | up => exact ih fs l.dropLast
    | name n =>
      have hlater : FilePath.wayFrom (l ++ [n]) ps ⊆ FilePath.wayFrom l (.name n :: ps) :=
        List.subset_cons_self _ _
      rw [makeDirectoriesFrom]
      split
      · exact .refl fs _ m
      · split
        · exact (ih fs (l ++ [n])).mono hlater
        · exact .refl fs _ m
        · rename_i hnone
          refine Spared.trans ?_ ((ih _ (l ++ [n])).mono hlater)
          rw [Spared, node?_insert_directory]
          split
          · rename_i hsame
            subst hsame
            exact .inr ⟨List.mem_cons_self, hnone, rfl⟩
          · exact .inl rfl

theorem spared_setFile (ht : fs.locateFile p = .ok t) (content : ByteArray)
    (hl : l ∉ p.filePlace?.toList) : fs.Spared (fs.setFile t content) [] l := by
  obtain ⟨hlocate, hnode, -⟩ := locateFile_spec ht
  rw [filePlace?_of_locate hlocate hnode, Option.toList_some, List.mem_singleton] at hl
  left
  rw [node?_setFile (ne_root_of_node? hnode), if_neg (Ne.symm hl)]

theorem StepLeaves.spared (h : fs.StepLeaves step fs') (hl : l ∉ step.places) :
    fs.Spared fs' step.made l := by
  cases h with
  | nothing => exact .refl fs _ l
  | @directories p _ n =>
    have hway : FilePath.wayFrom [] (p.parts.take n) ⊆ p.way := by
      rw [FilePath.way, ← List.take_append_drop n p.parts, FilePath.wayFrom_append,
        List.take_append_drop]
      exact List.subset_append_left _ _
    exact (fs.spared_makeDirectoriesFrom [] _ l).mono hway
  | bytes ht content written => exact spared_setFile ht written hl
  | @renamed source target _ h =>
    obtain ⟨content, s, t, -, hs, hnode, ht, ⟨-, rfl⟩ | ⟨-, rfl⟩⟩ := rename_eq_ok h
    · exact .refl _ _ l
    · have hs' := not_directory_of_file hnode
      obtain ⟨hlocate, ht', -⟩ := locateFile_spec ht
      rw [Step.places, filePlace?_of_locate hs hs', filePlace?_of_locate hlocate ht',
        Option.toList_some, Option.toList_some, List.mem_append, List.mem_singleton,
        List.mem_singleton, not_or] at hl
      left
      rw [node?_setFile (ne_root_of_node? ht'), if_neg (Ne.symm hl.2),
        node?_erase (ne_root_of_node? hs'), if_neg (Ne.symm hl.1)]

/-- Wherever steps stop, they have touched no file that they do not name. -/
theorem Leaves.spared (h : fs.Leaves steps fs') (hl : l ∉ steps.flatMap Step.places) :
    fs.Spared fs' (steps.flatMap Step.made) l :=
  h.induction (R := fun fs fs' => fs.Spared fs' (steps.flatMap Step.made) l)
    (fun fs => .refl fs _ l) Spared.trans fun step hmem _ _ hstep =>
      (hstep.spared fun hnamed => hl (List.mem_flatMap.mpr ⟨step, hmem, hnamed⟩)).mono
        fun _ hmade => List.mem_flatMap.mpr ⟨step, hmem, hmade⟩

/-! Directories stay -/

theorem KeepsDirectories.refl (fs : FileSystem) : KeepsDirectories fs fs := fun _ => id

theorem KeepsDirectories.trans (h : KeepsDirectories fs middle)
    (h' : KeepsDirectories middle fs') : KeepsDirectories fs fs' :=
  fun l hl => h' l (h l hl)

theorem StepLeaves.keepsDirectories (h : fs.StepLeaves step fs') : KeepsDirectories fs fs' := by
  cases h with
  | nothing => exact .refl fs
  | directories _ n => exact fun l hl => (fs.spared_makeDirectoriesFrom [] _ l).node? hl
  | bytes ht content written => exact keepsDirectories_setFile (locateFile_spec ht).2.1 written
  | renamed h =>
    obtain ⟨content, s, t, -, -, hnode, ht, ⟨-, rfl⟩ | ⟨-, rfl⟩⟩ := rename_eq_ok h
    · exact .refl _
    · exact keepsDirectories_move (not_directory_of_file hnode) (locateFile_spec ht).2.1 content

theorem Leaves.keepsDirectories (h : fs.Leaves steps fs') : KeepsDirectories fs fs' :=
  h.induction .refl KeepsDirectories.trans fun _ _ _ _ hstep => hstep.keepsDirectories

/-! Files stay where nothing is renamed -/

def KeepsFiles (fs fs' : FileSystem) : Prop :=
  ∀ l content, fs.node? l = some (.file content) → ∃ found, fs'.node? l = some (.file found)

theorem KeepsFiles.trans (h : KeepsFiles fs middle) (h' : KeepsFiles middle fs') :
    KeepsFiles fs fs' := by
  intro l content hl
  obtain ⟨found, hfound⟩ := h l content hl
  exact h' l found hfound

theorem KeepsFiles.refl (fs : FileSystem) : KeepsFiles fs fs := fun _ content hl => ⟨content, hl⟩

def Step.isRename : Step → Bool
  | .rename _ _ => true
  | _ => false

theorem StepLeaves.keepsFiles (h : fs.StepLeaves step fs') (hstep : step.isRename = false) :
    KeepsFiles fs fs' := by
  cases h with
  | nothing => exact .refl fs
  | directories _ n =>
    intro l content hl
    exact ⟨content, (fs.spared_makeDirectoriesFrom [] _ l).node? hl⟩
  | bytes ht _ written =>
    intro l content hl
    rw [node?_setFile (ne_root_of_node? (locateFile_spec ht).2.1)]
    split
    · exact ⟨written, rfl⟩
    · exact ⟨content, hl⟩
  | renamed => cases hstep

theorem Leaves.keepsFiles (h : fs.Leaves steps fs')
    (hsteps : ∀ step ∈ steps, step.isRename = false) : KeepsFiles fs fs' :=
  h.induction .refl KeepsFiles.trans fun step hmem _ _ hstep => hstep.keepsFiles (hsteps step hmem)

/-- Where nothing is missing, what is wrong with a way stays wrong. -/
theorem locateFrom_error_of_keeps (hdirectories : KeepsDirectories fs fs')
    (hfiles : KeepsFiles fs fs') {e : FileError} (he : e ≠ .notFound)
    (h : fs.locateFrom l ps = .error e) : fs'.locateFrom l ps = .error e := by
  induction ps generalizing l with
  | nil => cases h
  | cons p ps ih =>
    cases p with
    | up => exact ih h
    | name n =>
      rw [locateFrom_name_eq_error] at h ⊢
      rcases h with hlong | ⟨hshort, hmore, ⟨-, hmissing⟩ | ⟨⟨content, hfile⟩, hkind⟩ | ⟨hdirectory, h⟩⟩
      · exact .inl hlong
      · exact absurd hmissing he
      · exact .inr ⟨hshort, hmore, .inr (.inl ⟨hfiles _ content hfile, hkind⟩)⟩
      · exact .inr ⟨hshort, hmore, .inr (.inr ⟨hdirectories _ hdirectory, ih h⟩)⟩

theorem locate_error_of_keeps (hdirectories : KeepsDirectories fs fs') (hfiles : KeepsFiles fs fs')
    {e : FileError} (he : e ≠ .notFound) (h : fs.locate p = .error e) :
    fs'.locate p = .error e := by
  rw [locate] at h ⊢
  split at h
  · rename_i husable
    rw [if_pos husable]
    exact locateFrom_error_of_keeps hdirectories hfiles he h
  · rename_i hunusable
    rw [if_neg hunusable]
    exact h

/-! Trees stay trees -/

theorem IsTree.node?_dropLast (tree : fs.IsTree) (hl : fs.node? l = some .directory) :
    fs.node? l.dropLast = some .directory := by
  cases l using List.reverseRecOn with
  | nil => exact hl
  | append_singleton l n =>
    rw [List.dropLast_concat]
    exact tree l n (by rw [hl]; nofun)

/-- Putting something that lies in a directory into a tree gives a tree, unless it
takes a directory's place. -/
theorem IsTree.insert (tree : fs.IsTree) {m : Location} {n : String} {node : FileNode}
    (hm : fs.node? m = some .directory)
    (hput : ∀ k, fs'.node? k = if m ++ [n] = k then some node else fs.node? k)
    (hnode : node = .directory ∨ fs.node? (m ++ [n]) ≠ some .directory) : fs'.IsTree := by
  intro k j hk
  have hdirectory : fs.node? k = some .directory := by
    rw [hput] at hk
    split at hk
    · rename_i hsame
      rw [← (List.append_inj' hsame rfl).1]
      exact hm
    · exact tree k j hk
  rw [hput]
  split
  · rename_i hsame
    rcases hnode with rfl | hother
    · rfl
    · rw [hsame] at hother
      exact absurd hdirectory hother
  · exact hdirectory

theorem isTree_makeDirectoriesFrom (tree : fs.IsTree) (hl : fs.node? l = some .directory)
    (ps : List PathPart) : (fs.makeDirectoriesFrom l ps).1.IsTree := by
  induction ps generalizing fs l with
  | nil => exact tree
  | cons p ps ih =>
    cases p with
    | up => exact ih tree (tree.node?_dropLast hl)
    | name n =>
      rw [makeDirectoriesFrom]
      split
      · exact tree
      · split
        · rename_i hdirectory
          exact ih tree hdirectory
        · exact tree
        · have hmade := tree.insert hl (node?_insert_directory fs (l ++ [n])) (.inl rfl)
          exact ih hmade (by rw [node?_insert_directory, if_pos rfl])

theorem IsTree.holder_of_locateFrom (tree : fs.IsTree) (hl : fs.node? l = some .directory)
    (h : fs.locateFrom l ps = .ok t) (ht : fs.node? t ≠ some .directory) :
    ∃ m n, t = m ++ [n] ∧ fs.node? m = some .directory := by
  induction ps generalizing l with
  | nil =>
    cases h
    exact absurd hl ht
  | cons p ps ih =>
    cases p with
    | up => exact ih (tree.node?_dropLast hl) h
    | name n =>
      obtain ⟨-, ⟨-, rfl⟩ | ⟨-, hdirectory, hrest⟩⟩ := locateFrom_name_eq_ok.mp h
      · exact ⟨l, n, rfl, hl⟩
      · exact ih hdirectory hrest

theorem IsTree.holder_of_locateFile (tree : fs.IsTree) (ht : fs.locateFile p = .ok t) :
    ∃ m n, t = m ++ [n] ∧ fs.node? m = some .directory := by
  obtain ⟨hlocate, hnode, -⟩ := locateFile_spec ht
  exact tree.holder_of_locateFrom fs.node?_root (locate_eq_ok_iff.mp hlocate).2 hnode

theorem IsTree.setFile (tree : fs.IsTree) {m : Location} {n : String}
    (hm : fs.node? m = some .directory) (hnode : fs.node? (m ++ [n]) ≠ some .directory)
    (content : ByteArray) : (fs.setFile (m ++ [n]) content).IsTree :=
  tree.insert hm (node?_setFile (ne_root_of_node? hnode) content) (.inr hnode)

/-- A file holds nothing, so a tree does without it. -/
theorem IsTree.erase (tree : fs.IsTree) (hl : fs.node? l ≠ some .directory) :
    IsTree { fs with nodes := fs.nodes.erase l } := by
  intro m n hm
  rw [node?_erase (ne_root_of_node? hl)] at hm
  split at hm
  · exact absurd rfl hm
  · exact keepsDirectories_erase hl m (tree m n hm)

theorem StepLeaves.isTree (h : fs.StepLeaves step fs') (tree : fs.IsTree) : fs'.IsTree := by
  cases h with
  | nothing => exact tree
  | directories _ n => exact isTree_makeDirectoriesFrom tree fs.node?_root _
  | bytes ht _ written =>
    obtain ⟨m, n, rfl, hm⟩ := tree.holder_of_locateFile ht
    exact tree.setFile hm (locateFile_spec ht).2.1 written
  | renamed h =>
    obtain ⟨content, s, t, -, -, hnode, ht, ⟨-, rfl⟩ | ⟨-, rfl⟩⟩ := rename_eq_ok h
    · exact tree
    · have hs := not_directory_of_file hnode
      obtain ⟨m, n, rfl, hm⟩ := tree.holder_of_locateFile ht
      have hm' := keepsDirectories_erase hs m hm
      exact (tree.erase hs).setFile hm' (not_directory_erase hs (locateFile_spec ht).2.1) content

theorem Leaves.isTree (h : fs.Leaves steps fs') (tree : fs.IsTree) : fs'.IsTree :=
  h.induction (R := fun fs fs' => fs.IsTree → fs'.IsTree) (fun _ => id)
    (fun h h' => h' ∘ h) (fun _ _ _ _ hstep => hstep.isTree) tree

end MeshTelemetry.FileSystem
