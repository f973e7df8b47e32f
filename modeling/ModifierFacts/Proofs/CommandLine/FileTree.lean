import ModifierFacts.CommandLine.FileTree
import ModifierFacts.Proofs.Json.Yields

/-!
# What was written is found

A file that can be created at a path is found there after it has been written, with the content that
it was given, whatever stood at the path before. Writing puts one more file into the tree; it does
not change the place that the path means, since every folder stays a folder.

* `FileTree.Adds`: one tree has one file more than another, where that has no folder;
* `Adds.locate`: every path means the place that it meant before;
* **`FileTree.find_write`**: what stands at the path after writing.
-/

namespace ModifierFacts.FileTree

open Json (except_bind_eq_ok)

variable {tree tree' : FileTree} {place : Place} {content : List UInt8}

/-- The second tree is the first one with one more file, where the first one has no folder. -/
structure Adds (tree tree' : FileTree) (place : Place) (content : List UInt8) : Prop where
  files : tree'.files = (place, .bytes content) :: tree.files
  home : tree'.home = tree.home
  free : tree.find? place ≠ some .directory

namespace Adds

theorem find?_place (h : Adds tree tree' place content) :
    tree'.find? place = some (.bytes content) := by
  rw [find?, h.files, List.lookup_cons, beq_self_eq_true]

/-- Every folder is still a folder. -/
theorem find?_directory (h : Adds tree tree' place content) {p : Place}
    (hp : tree.find? p = some .directory) : tree'.find? p = some .directory := by
  have hne : p ≠ place := by
    rintro rfl
    exact h.free hp
  rw [find?, h.files, List.lookup_cons, beq_eq_false_iff_ne.mpr hne, h.home]
  dsimp only
  rw [find?] at hp
  cases hlookup : tree.files.lookup p with
  | some file =>
    rw [hlookup] at hp
    exact hp
  | none =>
    rw [hlookup] at hp
    dsimp only at hp ⊢
    split at hp
    · rename_i hcovered
      rw [Bool.or_eq_true] at hcovered
      rw [if_pos]
      rw [List.any_cons, Bool.or_eq_true, Bool.or_eq_true]
      rcases hcovered with hhome | hfile
      · exact .inl hhome
      · exact .inr (.inr hfile)
    · cases hp

theorem enter (h : Adds tree tree' place content) {folder p : Place} {name : String}
    (hp : tree.enter folder name = .ok p) : tree'.enter folder name = .ok p := by
  unfold FileTree.enter at hp ⊢
  obtain ⟨q, hchild, hfound⟩ := except_bind_eq_ok hp
  rw [hchild]
  split at hfound
  · rename_i hdirectory
    dsimp only [bind, Except.bind]
    rw [h.find?_directory hdirectory]
    exact hfound
  · cases hfound
  · cases hfound

theorem walk (h : Adds tree tree' place content) {names : List String} {start p : Place}
    (hp : tree.walk start names = .ok p) : tree'.walk start names = .ok p := by
  induction names generalizing start with
  | nil => exact hp
  | cons name names ih =>
    obtain ⟨q, henter, hrest⟩ := except_bind_eq_ok hp
    unfold FileTree.walk
    rw [List.foldlM_cons, h.enter henter]
    exact ih hrest

theorem folderOf (h : Adds tree tree' place content) {path : Path} {p : Place}
    (hp : tree.folderOf path = .ok p) : tree'.folderOf path = .ok p := by
  unfold FileTree.folderOf at hp ⊢
  rw [h.home]
  exact h.walk hp

/-- A path means the place that it meant before. -/
theorem locate (h : Adds tree tree' place content) {path : Path} {p : Place}
    (hp : tree.locate path = .ok p) : tree'.locate path = .ok p := by
  unfold FileTree.locate at hp ⊢
  obtain ⟨folder, hfolder, hchild⟩ := except_bind_eq_ok hp
  rw [h.folderOf hfolder]
  exact hchild

end Adds

/-- Where a file can be created, the path means a place that is no folder. -/
theorem locate_of_create {path : Path} (h : tree.create path = .ok ()) :
    path.folder = false ∧ ∃ place, tree.locate path = .ok place ∧
      tree.find? place ≠ some .directory := by
  unfold create at h
  obtain ⟨folder, hfolder, hname⟩ := except_bind_eq_ok h
  split at hname
  · cases hname
  · rename_i name hnew
    obtain ⟨place, hchild, hfree⟩ := except_bind_eq_ok hname
    unfold Path.newName? at hnew
    split at hnew
    · cases hnew
    · rename_i hfile
      have hlast : path.names.getLast? = some name := (Option.filter_eq_some_iff.mp hnew).1
      refine ⟨Bool.eq_false_iff.mpr hfile, place, ?_, ?_⟩
      · rw [locate, hfolder]
        dsimp only [bind, Except.bind]
        rw [hlast]
        exact hchild
      · intro hdirectory
        rw [hdirectory] at hfree
        cases hfree

/-- **What was written at a path is found there.** -/
theorem find_write {text : String} (h : tree.create (.ofText text) = .ok ())
    (content : List UInt8) : (tree.write text content).find (.ofText text) = .ok (.bytes content) := by
  obtain ⟨hfile, place, hplace, hfree⟩ := locate_of_create h
  have hwrite : tree.write text content =
      { tree with files := (place, .bytes content) :: tree.files } := by
    rw [write, hplace]
  have hadds : Adds tree (tree.write text content) place content := by
    rw [hwrite]
    exact ⟨rfl, rfl, hfree⟩
  rw [find, hadds.locate hplace]
  simp only [bind, Except.bind, hadds.find?_place, hfile, pure, Except.pure]

/-- A path at which the storage creates a file is not too long for one. -/
theorem create_of_storage {text : String} (h : tree.storage.create text = .ok ()) :
    tree.create (.ofText text) = .ok () := by
  obtain ⟨path, hpath, hcreate⟩ := except_bind_eq_ok h
  unfold FileTree.path at hpath
  split at hpath
  · cases hpath
  · cases hpath
    exact hcreate

/-- What is read at a path is the text of the file that is found there. -/
theorem read_of_find {text : String} {path : Path} {file : File}
    (hpath : FileTree.path text = .ok path) (hfind : tree.find path = .ok file) :
    tree.storage.read text = file.text := by
  show (FileTree.path text >>= fun path => tree.find path >>= File.text) = _
  rw [hpath]
  show (tree.find path >>= File.text) = _
  rw [hfind]
  rfl

end ModifierFacts.FileTree
