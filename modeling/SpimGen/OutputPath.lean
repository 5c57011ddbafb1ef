/-
Names of output files.  A path names an output file if the extension of its
last part is `s` or `asm`.
-/

namespace SpimGen.OutputPath

/-- Splits a path at its slashes; there is always at least one part. -/
def parts : List Char → List (List Char)
  | [] => [[]]
  | c :: rest =>
      if c = '/' then [] :: parts rest
      else
        match parts rest with
        | [] => [[c]]
        | first :: others => (c :: first) :: others

theorem parts_ne_nil (path : List Char) : parts path ≠ [] := by
  induction path with
  | nil => simp [parts]
  | cons c rest ih =>
      rw [parts]
      split
      · simp
      · split <;> simp

theorem slash_notMem_of_mem_parts {path part : List Char}
    (hpart : part ∈ parts path) : '/' ∉ part := by
  induction path generalizing part with
  | nil => simp_all [parts]
  | cons c rest ih =>
      rw [parts] at hpart
      split at hpart
      · rcases List.mem_cons.mp hpart with rfl | hmem
        · simp
        · exact ih hmem
      · rename_i hslash
        split at hpart
        · exact absurd ‹_› (parts_ne_nil rest)
        · rename_i first others hparts
          rcases List.mem_cons.mp hpart with rfl | hmem
          · intro hmem
            rcases List.mem_cons.mp hmem with heq | hmem
            · exact hslash heq.symm
            · exact ih (by rw [hparts]; exact List.mem_cons_self) hmem
          · exact ih (by rw [hparts]; exact List.mem_cons_of_mem first hmem)

/-- A part that does not lead anywhere: nothing, or a single dot. -/
def isIdle (part : List Char) : Bool :=
  part == [] || part == ['.']

/-- The last part that leads somewhere, unless it is the parent folder. -/
def fileName? (path : List Char) : Option (List Char) :=
  match (parts path).reverse.dropWhile isIdle with
  | [] => none
  | last :: _ => if last = ['.', '.'] then none else some last

/-- What follows the last dot of a file name.  A dot at the very start hides
the file and begins no extension. -/
def extension? (name : List Char) : Option (List Char) :=
  match name.reverse.span (· ≠ '.') with
  | (_, []) => none
  | (_, [_]) => none
  | (reversed, _ :: _ :: _) => some reversed.reverse

inductive Flaw where
  | noExtension
  | wrongExtension (text : String)
deriving Repr, DecidableEq

def Flaw.message : Flaw → String
  | .noExtension => "No file extension"
  | .wrongExtension text =>
      "Invalid file extension: " ++ text ++ " (expected .s or .asm)"

def accepted : List (List Char) :=
  [['s'], ['a', 's', 'm']]

/-- Checks that a path names an output file. -/
def check (path : String) : Except Flaw String :=
  match (fileName? path.toList).bind extension? with
  | none => .error .noExtension
  | some ending =>
      if ending ∈ accepted then .ok path
      else .error (.wrongExtension (String.ofList ending))

end SpimGen.OutputPath
