/-
Labels of string literals.  They are numbered from zero in the order in which
they are assigned.  The number is a word of 32 bits: behind the last one it
starts again at zero, and the table is as empty as at first.
-/

namespace SpimGen

structure StringLabel where
  word : UInt32
deriving Repr, DecidableEq

namespace StringLabel

def index (label : StringLabel) : Nat :=
  label.word.toNat

/-- The label with a number, or with what is left of the number in a word. -/
def ofIndex (number : Nat) : StringLabel :=
  ⟨.ofNat number⟩

/-- Label text; its start cannot begin an identifier of a source program. -/
def text (label : StringLabel) : String :=
  "__str" ++ toString label.index

@[simp]
theorem ofIndex_index (label : StringLabel) : ofIndex label.index = label :=
  congrArg mk UInt32.ofNat_toNat

theorem index_ofIndex {number : Nat} (hnumber : number < UInt32.size) :
    (ofIndex number).index = number :=
  UInt32.toNat_ofNat_of_lt' hnumber

theorem eq_ofIndex_iff {label : StringLabel} {number : Nat}
    (hnumber : number < UInt32.size) :
    label = ofIndex number ↔ label.index = number := by
  constructor
  · rintro rfl
    exact index_ofIndex hnumber
  · rintro rfl
    exact label.ofIndex_index.symm

theorem text_ofIndex {number : Nat} (hnumber : number < UInt32.size) :
    (ofIndex number).text = "__str" ++ toString number := by
  rw [text, index_ofIndex hnumber]

end StringLabel

/-- The labels with a number below `next`. -/
structure LabelTable where
  next : UInt32 := 0
deriving Repr, DecidableEq

namespace LabelTable

def fresh (table : LabelTable) : StringLabel :=
  ⟨table.next⟩

/-- Counts the fresh label as assigned. -/
def advance (table : LabelTable) : LabelTable :=
  ⟨table.next + 1⟩

def isEmpty (table : LabelTable) : Bool :=
  table.next == 0

def count (table : LabelTable) : Nat :=
  table.next.toNat

def labels (table : LabelTable) : List StringLabel :=
  (List.range table.count).map StringLabel.ofIndex

theorem count_lt (table : LabelTable) : table.count < UInt32.size :=
  table.next.toNat_lt_size

/-- A label is listed exactly if its number is below the next one. -/
@[simp]
theorem mem_labels_iff (table : LabelTable) (label : StringLabel) :
    label ∈ table.labels ↔ label.index < table.count := by
  rw [labels, List.mem_map]
  constructor
  · rintro ⟨number, hnumber, rfl⟩
    rw [List.mem_range] at hnumber
    rwa [StringLabel.index_ofIndex (Nat.lt_trans hnumber table.count_lt)]
  · intro hlt
    exact ⟨label.index, List.mem_range.mpr hlt, label.ofIndex_index⟩

/-- The labels before a listed one are those with smaller numbers. -/
theorem labels_split {table : LabelTable} {number : Nat}
    (hnumber : number < table.count) :
    ∃ rest, table.labels =
      (List.range number).map StringLabel.ofIndex ++
        StringLabel.ofIndex number :: rest := by
  obtain ⟨more, hmore⟩ := Nat.exists_eq_add_of_lt hnumber
  rw [labels, hmore, Nat.add_assoc, List.range_add, List.map_append,
    List.range_succ_eq_map, List.map_cons, List.map_cons, Nat.add_zero]
  exact ⟨_, rfl⟩

end LabelTable

end SpimGen
