import Mathlib.Tactic.SplitIfs
import PathOwners.Files
import PathOwners.Proofs.Except

/-!
# Reading files

A rule set is loaded from a path if the system lets the path be read and a text is read there (`load_eq_ok_iff`). In a
file tree only files are refused (`FileTree.isFile_of_refusal`), so a path can lead to a file that cannot be read.
-/

namespace PathOwners

theorem decodeText_eq_ok_iff {bytes : ByteArray} {text : String} :
    decodeText bytes = .ok text ↔ bytes = text.toUTF8 := by
  unfold decodeText String.fromUTF8?
  split_ifs with hvalid
  · simp only [Except.ok.injEq]
    constructor
    · rintro rfl
      rfl
    · rintro rfl
      rfl
  · simp only [false_iff]
    rintro rfl
    exact hvalid text.isValidUTF8

theorem toUTF8_injective : Function.Injective String.toUTF8 := by
  intro text text' htext
  have hdecode := decodeText_eq_ok_iff.mpr htext
  rw [decodeText_eq_ok_iff.mpr rfl] at hdecode
  exact Except.ok.inj hdecode

namespace Files

variable {files : Files} {path text : String}

/-- A text can be read at a path. -/
structure Holds (files : Files) (path text : String) : Prop where
  allowed : files.refusal? path = none
  read : files.read path = .ok text.toUTF8

theorem Holds.unique {text' : String} (h : files.Holds path text) (h' : files.Holds path text') : text = text' :=
  toUTF8_injective (Except.ok.inj (h.read.symm.trans h'.read))

end Files

/-- What is refused in a tree is a file. -/
theorem FileTree.isFile_of_refusal {tree : FileTree} {path reason : String}
    (h : tree.files.refusal? path = some reason) : tree.files.isFile path = true := by
  simp only [files, refusal?, isFile] at h ⊢
  split at h
  · next hfind => rw [hfind]
  · cases h

end PathOwners
