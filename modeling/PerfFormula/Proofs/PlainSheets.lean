import PerfFormula.Samples.Sheet

/-!
# Plain frames obey the laws

The library for plain frames does what is relied on: an array keeps its numbers in order when it is
arranged anew, a frame that is made of one has them row by row, and a column is selected by its
label if no other one has the same.

Main statements:

* `FrameLibrary.laws_plain` — the laws of libraries for frames hold of plain frames.
-/

namespace PerfFormula
namespace Sheet

/-! ## Arrays -/

theorem array_of_even {rows : List (List Float)} {width : Nat}
    (even : ∀ row ∈ rows, row.length = width) :
    ∃ a, array rows = .ok a ∧ a.values = rows.flatten := by
  cases rows with
  | nil => exact ⟨_, rfl, rfl⟩
  | cons row rest =>
    have first : row.length = width := even row List.mem_cons_self
    have alike : (rest.all fun r => r.length == row.length) = true := by
      rw [List.all_eq_true]
      intro r mem
      rw [beq_iff_eq, first]
      exact even r (List.mem_cons_of_mem row mem)
    exact ⟨_, if_pos alike, rfl⟩

theorem ofArray_of_shape {a : Grid} {index : Option String × List Label} {columns : List Label}
    (shape : a.shape = [index.2.length, columns.length]) :
    ∃ f, ofArray a index columns = .ok f ∧ (f.indexName, f.rows.map (·.1)) = index ∧
      f.columns = columns ∧ (f.rows.map fun row => f.columns.zip row.2) =
        (FrameLibrary.rowMajor columns.length index.2.length a.values).map fun row =>
          columns.zip (row.map .real) := by
  have length : ((FrameLibrary.rowMajor columns.length index.2.length
      a.values).map fun row => row.map Cell.real).length = index.2.length :=
    (List.length_map _).trans (FrameLibrary.length_rowMajor ..)
  refine ⟨_, if_pos shape, Prod.ext rfl (List.map_fst_zip (Nat.le_of_eq length.symm)), rfl, ?_⟩
  show (List.zip _ _).map ((fun row => columns.zip row) ∘ Prod.snd) = _
  rw [← List.map_map, List.map_snd_zip (Nat.le_of_eq length), List.map_map]
  rfl

/-! ## Columns -/

theorem countP_text (names : List String) (name : String) :
    (names.map Label.text).countP (· == .text name) = names.count name := by
  rw [List.countP_map]
  rfl

theorem select_once {f : Sheet} {names : List String} (columns : f.columns = names.map .text)
    {name : String} (once : names.count name = 1) :
    ∃ cells, select f (.text name) = .ok (.series cells) := by
  unfold select
  rw [columns, countP_text, once]
  exact ⟨_, rfl⟩

theorem select_several {f : Sheet} {names : List String} (columns : f.columns = names.map .text)
    {name : String} (several : 1 < names.count name) :
    ∃ g, select f (.text name) = .ok (.frame g) := by
  unfold select
  rw [columns, countP_text]
  split
  · next none => omega
  · next once => omega
  · exact ⟨_, rfl⟩

/-! ## Writing -/

theorem toCsv_of_free {files : FileTree} {path : String}
    (directory : files.has (Path.ofString path).parent = true)
    (free : files.hasDirectory (.ofString path) = false) (f : Sheet) :
    ∃ text, toCsv files f path = .ok text := by
  unfold toCsv
  simp only [directory, free]
  exact ⟨_, rfl⟩

end Sheet

/-- The laws of libraries for frames hold of plain frames. -/
theorem FrameLibrary.laws_plain : FrameLibrary.plain.Laws where
  text_label _ := rfl
  notMissing_real _ := rfl
  notMissing_missing := rfl
  size_index _ := (List.length_map _).trans (List.length_map _).symm
  length_eq _ := (List.length_map _).symm
  array_of_even _ _ even := Sheet.array_of_even even
  reshape_of_length _ _ _ enough := ⟨_, if_pos enough, rfl, rfl⟩
  frame_of_shape _ _ _ shape := Sheet.ofArray_of_shape shape
  select_once _ _ columns _ once := Sheet.select_once columns once
  select_several _ _ columns _ several := Sheet.select_several columns several
  truth_error _ := ⟨_, rfl⟩
  toCsv_of_free _ f _ directory free := Sheet.toCsv_of_free directory free f

end PerfFormula
