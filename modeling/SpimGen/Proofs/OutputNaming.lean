/-
Which paths name an output file.  A naming cuts a path into the folder that it
leads to, the stem and the ending of a name in this folder, and a trail of steps
that lead nowhere.

The check takes a path apart from the right, and a name at its last dot.  It
accepts exactly the paths that have a naming with an accepted ending, and of the
others it reports the ending of a naming if there is one.  Two dots alone read
as a name without an ending, but stand for the parent folder and name no file.
-/
import SpimGen.OutputPath
import Mathlib.Data.List.TakeDrop
import Mathlib.Data.List.TakeWhile

namespace SpimGen.OutputPath

/-- Nothing, or a text that ends with a slash. -/
def Closes (folder : List Char) : Prop :=
  folder = [] ∨ folder.getLast? = some '/'

/-- Nothing, or a text that starts with a slash. -/
def Opens (trail : List Char) : Prop :=
  trail = [] ∨ trail.head? = some '/'

/-- A path, cut before a file name, around its last dot, and after it. -/
structure Naming where
  folder : String
  stem : String
  ending : String
  trail : String
  folder_closes : Closes folder.toList
  stem_ne_empty : stem ≠ ""
  slash_notMem_stem : '/' ∉ stem.toList
  slash_notMem_ending : '/' ∉ ending.toList
  dot_notMem_ending : '.' ∉ ending.toList
  trail_opens : Opens trail.toList
  trail_idle : ∀ part ∈ trail.toList.splitOn '/', part = [] ∨ part = ['.']

namespace Naming

def name (naming : Naming) : String :=
  naming.stem ++ "." ++ naming.ending

def path (naming : Naming) : String :=
  naming.folder ++ naming.name ++ naming.trail

end Naming

/-! ### Parts of a path -/

theorem parts_eq_splitOn (path : List Char) : parts path = path.splitOn '/' := by
  induction path with
  | nil => rfl
  | cons c rest ih =>
      rw [parts, List.splitOn_cons_eq_if_modifyHead, ih]
      by_cases hslash : c = '/'
      · simp [hslash]
      · rcases hparts : rest.splitOn '/' with _ | ⟨first, others⟩
        · exact absurd hparts (List.splitOn_ne_nil '/' rest)
        · simp [hslash]

theorem parts_append_slash (front rest : List Char) :
    parts (front ++ '/' :: rest) = parts front ++ parts rest := by
  simp only [parts_eq_splitOn, List.splitOn_append_cons_self]

/-- The first part of a trail is empty, and the name before the trail takes its
place. -/
theorem parts_append_trail {name trail : List Char} (hname : '/' ∉ name)
    (htrail : Opens trail) :
    parts (name ++ trail) = name :: (parts trail).tail := by
  rcases htrail with rfl | hslash
  · rw [List.append_nil, parts_eq_splitOn, List.splitOn_eq_singleton hname]
    rfl
  · obtain ⟨rest, rfl⟩ := List.head?_eq_some_iff.mp hslash
    rw [parts_append_slash, parts_eq_splitOn name,
      List.splitOn_eq_singleton hname]
    simp [parts]

theorem exists_parts_append {folder : List Char} (hfolder : Closes folder)
    (rest : List Char) :
    ∃ before, parts (folder ++ rest) = before ++ parts rest := by
  rcases hfolder with rfl | hslash
  · exact ⟨[], rfl⟩
  · obtain ⟨front, rfl⟩ := List.getLast?_eq_some_iff.mp hslash
    refine ⟨parts front, ?_⟩
    rw [List.append_assoc, List.singleton_append, parts_append_slash]

theorem exists_trail_of_parts {path first : List Char}
    {others : List (List Char)} (hparts : parts path = first :: others) :
    ∃ trail, path = first ++ trail ∧ Opens trail ∧
      (parts trail).tail = others := by
  induction path generalizing first with
  | nil =>
      cases hparts
      exact ⟨[], rfl, .inl rfl, rfl⟩
  | cons c rest ih =>
      rw [parts] at hparts
      split at hparts
      · rename_i hslash
        cases hparts
        subst hslash
        exact ⟨'/' :: rest, rfl, .inr rfl, by simp [parts]⟩
      · split at hparts
        · exact absurd ‹_› (parts_ne_nil rest)
        · rename_i head tail hrest
          cases hparts
          obtain ⟨trail, rfl, htrail, hothers⟩ := ih hrest
          exact ⟨trail, rfl, htrail, hothers⟩

/-- Around any of its parts, a path is cut into a folder and a trail. -/
theorem exists_cut_of_parts {path name : List Char}
    {before after : List (List Char)}
    (hparts : parts path = before ++ name :: after) :
    ∃ folder trail, path = folder ++ name ++ trail ∧ Closes folder ∧
      Opens trail ∧ (parts trail).tail = after := by
  induction before generalizing path with
  | nil =>
      obtain ⟨trail, hpath, htrail, hafter⟩ := exists_trail_of_parts hparts
      exact ⟨[], trail, hpath, .inl rfl, htrail, hafter⟩
  | cons first before ih =>
      obtain ⟨behind, rfl, hbehind, hothers⟩ := exists_trail_of_parts hparts
      rcases hbehind with rfl | hslash
      · simp [parts] at hothers
      · obtain ⟨rest, rfl⟩ := List.head?_eq_some_iff.mp hslash
        have hrest : parts rest = before ++ name :: after := by
          rw [parts, if_pos rfl] at hothers
          exact hothers
        obtain ⟨folder, trail, rfl, hfolder, htrail, hafter⟩ := ih hrest
        refine ⟨first ++ '/' :: folder, trail, by simp, ?_, htrail, hafter⟩
        right
        rcases hfolder with rfl | hlast
        · simp
        · simp [List.getLast?_append, List.getLast?_cons, hlast]

/-! ### File names and their endings -/

/-- A search from the right stops at the last entry that fails a test. -/
theorem span_reverse_eq_iff {α : Type} {test : α → Bool}
    {entries before after : List α} {last : α} :
    entries.reverse.span test = (after.reverse, last :: before.reverse) ↔
      entries = before ++ last :: after ∧
        (∀ entry ∈ after, test entry = true) ∧ test last = false := by
  rw [List.span_eq_takeWhile_dropWhile, Prod.mk.injEq]
  constructor
  · rintro ⟨htake, hdrop⟩
    refine ⟨?_, ?_, ?_⟩
    · have hwhole := List.takeWhile_append_dropWhile
        (p := test) (l := entries.reverse)
      rw [htake, hdrop, ← List.reverse_inj] at hwhole
      simpa using hwhole.symm
    · intro entry hentry
      apply List.mem_takeWhile_imp (l := entries.reverse)
      rw [htake]
      exact List.mem_reverse.mpr hentry
    · have hhead := List.head?_dropWhile_not test entries.reverse
      simpa [hdrop] using hhead
  · rintro ⟨rfl, hafter, hlast⟩
    have hpassed : ∀ entry ∈ after.reverse, test entry = true :=
      fun entry hentry => hafter entry (List.mem_reverse.mp hentry)
    rw [List.reverse_append, List.reverse_cons, List.append_assoc,
      List.takeWhile_append_of_pos hpassed,
      List.dropWhile_append_of_pos hpassed]
    simp [hlast]

theorem isIdle_iff {part : List Char} :
    isIdle part = true ↔ part = [] ∨ part = ['.'] := by
  simp [isIdle]

theorem fileName?_eq_some_iff {path name : List Char} :
    fileName? path = some name ↔
      ∃ before after, parts path = before ++ name :: after ∧
        (∀ part ∈ after, isIdle part = true) ∧ isIdle name = false ∧
        name ≠ ['.', '.'] := by
  have hdrop : (parts path).reverse.dropWhile isIdle =
      ((parts path).reverse.span isIdle).2 := by
    rw [List.span_eq_takeWhile_dropWhile]
  rw [fileName?, hdrop]
  constructor
  · intro hname
    rcases hspan : (parts path).reverse.span isIdle with
      ⟨idle, _ | ⟨last, others⟩⟩
    · rw [hspan] at hname
      contradiction
    · simp only [hspan] at hname
      split at hname
      · contradiction
      · rename_i hparent
        cases hname
        rw [← idle.reverse_reverse, ← others.reverse_reverse,
          span_reverse_eq_iff] at hspan
        obtain ⟨hparts, hidle, hname⟩ := hspan
        exact ⟨_, _, hparts, hidle, hname, hparent⟩
  · rintro ⟨before, after, hparts, hidle, hname, hparent⟩
    rw [span_reverse_eq_iff.mpr ⟨hparts, hidle, hname⟩]
    exact if_neg hparent

theorem extension?_eq_some_iff {name ending : List Char} :
    extension? name = some ending ↔
      ∃ stem, stem ≠ [] ∧ '.' ∉ ending ∧ name = stem ++ '.' :: ending := by
  constructor
  · intro hending
    rw [extension?] at hending
    rcases hspan : name.reverse.span (· ≠ '.') with
      ⟨reversed, _ | ⟨dot, _ | ⟨c, rest⟩⟩⟩
    · rw [hspan] at hending
      contradiction
    · rw [hspan] at hending
      contradiction
    · simp only [hspan, Option.some.injEq] at hending
      rw [← reversed.reverse_reverse, ← (c :: rest).reverse_reverse,
        span_reverse_eq_iff, hending] at hspan
      obtain ⟨hname, hplain, hdot⟩ := hspan
      refine ⟨(c :: rest).reverse, by simp, ?_, ?_⟩
      · intro hmem
        simpa using hplain '.' hmem
      · rw [hname, show dot = '.' by simpa using hdot]
  · rintro ⟨stem, hstem, hdot, rfl⟩
    have hspan : (stem ++ '.' :: ending).reverse.span (· ≠ '.') =
        (ending.reverse, '.' :: stem.reverse) := by
      apply span_reverse_eq_iff.mpr
      refine ⟨rfl, ?_, by simp⟩
      intro c hc
      simpa using fun heq : c = '.' => hdot (heq ▸ hc)
    rw [extension?, hspan]
    rcases hreverse : stem.reverse with _ | ⟨c, rest⟩
    · exact absurd (List.reverse_eq_nil_iff.mp hreverse) hstem
    · simp

/-- The ending that a path is checked by. -/
def ending? (path : String) : Option String :=
  ((fileName? path.toList).bind extension?).map String.ofList

/-! ### From a naming to the ending -/

namespace Naming

theorem toList_name (naming : Naming) :
    naming.name.toList =
      naming.stem.toList ++ '.' :: naming.ending.toList := by
  simp [name]

theorem toList_path (naming : Naming) :
    naming.path.toList =
      naming.folder.toList ++
        (naming.name.toList ++ naming.trail.toList) := by
  simp [path]

theorem toList_stem_ne_nil (naming : Naming) : naming.stem.toList ≠ [] := by
  simpa using naming.stem_ne_empty

theorem slash_notMem_name (naming : Naming) : '/' ∉ naming.name.toList := by
  rw [toList_name]
  simp [naming.slash_notMem_stem, naming.slash_notMem_ending]

theorem isIdle_name (naming : Naming) : isIdle naming.name.toList = false := by
  rw [Bool.eq_false_iff, Ne, isIdle_iff, toList_name]
  simp [List.append_eq_cons_iff, naming.toList_stem_ne_nil]

theorem exists_parts_path (naming : Naming) :
    ∃ before after, parts naming.path.toList =
        before ++ naming.name.toList :: after ∧
      ∀ part ∈ after, isIdle part = true := by
  obtain ⟨before, hbefore⟩ := exists_parts_append naming.folder_closes
    (naming.name.toList ++ naming.trail.toList)
  refine ⟨before, (parts naming.trail.toList).tail, ?_, ?_⟩
  · rw [toList_path, hbefore,
      parts_append_trail naming.slash_notMem_name naming.trail_opens]
  · intro part hpart
    apply isIdle_iff.mpr
    apply naming.trail_idle
    rw [← parts_eq_splitOn]
    exact List.mem_of_mem_tail hpart

theorem ending?_path {naming : Naming} (hname : naming.name ≠ "..") :
    ending? naming.path = some naming.ending := by
  have hfile : fileName? naming.path.toList = some naming.name.toList := by
    obtain ⟨before, after, hparts, hidle⟩ := naming.exists_parts_path
    apply fileName?_eq_some_iff.mpr
    refine ⟨before, after, hparts, hidle, naming.isIdle_name, ?_⟩
    exact fun hparent => hname (String.toList_inj.mp hparent)
  have hextension :
      extension? naming.name.toList = some naming.ending.toList :=
    extension?_eq_some_iff.mpr ⟨naming.stem.toList, naming.toList_stem_ne_nil,
      naming.dot_notMem_ending, naming.toList_name⟩
  simp [ending?, hfile, hextension]

theorem name_ne_parent {naming : Naming}
    (haccepted : naming.ending = "s" ∨ naming.ending = "asm") :
    naming.name ≠ ".." := by
  intro hname
  have hdots : naming.stem.toList ++ '.' :: naming.ending.toList =
      ['.', '.'] := by
    rw [← toList_name, hname]
    rfl
  have hlast := congrArg List.getLast? hdots
  rcases haccepted with hending | hending
  · simp [hending] at hlast
  · simp [hending] at hlast

end Naming

/-! ### From the ending to a naming -/

theorem idle_of_idle_tail {trail : List Char} (htrail : Opens trail)
    (htail : ∀ part ∈ (parts trail).tail, isIdle part = true) :
    ∀ part ∈ trail.splitOn '/', part = [] ∨ part = ['.'] := by
  have hfirst : parts ([] ++ trail) = [] :: (parts trail).tail :=
    parts_append_trail List.not_mem_nil htrail
  intro part hpart
  rw [← parts_eq_splitOn, ← trail.nil_append, hfirst] at hpart
  rcases List.mem_cons.mp hpart with rfl | hpart
  · exact .inl rfl
  · exact isIdle_iff.mp (htail part hpart)

theorem exists_naming_of_ending? {path ending : String}
    (hending : ending? path = some ending) :
    ∃ naming : Naming, naming.path = path ∧ naming.ending = ending ∧
      naming.name ≠ ".." := by
  obtain ⟨letters, hletters, rfl⟩ := Option.map_eq_some_iff.mp hending
  obtain ⟨name, hfile, hextension⟩ := Option.bind_eq_some_iff.mp hletters
  obtain ⟨before, after, hparts, hidle, -, hparent⟩ :=
    fileName?_eq_some_iff.mp hfile
  obtain ⟨stem, hstem, hdot, rfl⟩ := extension?_eq_some_iff.mp hextension
  obtain ⟨folder, trail, hpath, hfolder, htrail, rfl⟩ :=
    exists_cut_of_parts hparts
  have hslash : '/' ∉ stem ++ '.' :: letters :=
    slash_notMem_of_mem_parts (hparts ▸ List.mem_append_cons_self)
  rw [List.mem_append, List.mem_cons, not_or, not_or] at hslash
  obtain ⟨hstemSlash, -, hlettersSlash⟩ := hslash
  let naming : Naming :=
    { folder := .ofList folder
      stem := .ofList stem
      ending := .ofList letters
      trail := .ofList trail
      folder_closes := by rwa [String.toList_ofList]
      stem_ne_empty := fun hempty => hstem (by simpa using hempty)
      slash_notMem_stem := by rwa [String.toList_ofList]
      slash_notMem_ending := by rwa [String.toList_ofList]
      dot_notMem_ending := by rwa [String.toList_ofList]
      trail_opens := by rwa [String.toList_ofList]
      trail_idle := by
        rw [String.toList_ofList]
        exact idle_of_idle_tail htrail hidle }
  have hname : naming.name.toList = stem ++ '.' :: letters := by
    rw [Naming.toList_name, String.toList_ofList, String.toList_ofList]
  refine ⟨naming, ?_, rfl, ?_⟩
  · apply String.toList_inj.mp
    rw [Naming.toList_path, hname, String.toList_ofList, String.toList_ofList,
      hpath]
    exact (List.append_assoc ..).symm
  · intro hdots
    rw [hdots] at hname
    exact hparent hname.symm

/-! ### The check -/

theorem check_eq (path : String) :
    check path =
      match ending? path with
      | none => .error .noExtension
      | some ending =>
          if ending = "s" ∨ ending = "asm" then .ok path
          else .error (.wrongExtension ending) := by
  rw [check, ending?]
  rcases (fileName? path.toList).bind extension? with _ | letters
  · rfl
  · have haccepted : letters ∈ accepted ↔
        String.ofList letters = "s" ∨ String.ofList letters = "asm" := by
      simp [accepted, ← String.toList_inj]
    simp only [haccepted, Option.map_some]

theorem check_eq_ok_iff {path : String} :
    check path = .ok path ↔
      ∃ ending, ending? path = some ending ∧
        (ending = "s" ∨ ending = "asm") := by
  rw [check_eq]
  rcases ending? path with _ | ending
  · simp
  · by_cases haccepted : ending = "s" ∨ ending = "asm"
    · simp [haccepted]
    · simp [haccepted]

theorem check_eq_noExtension_iff {path : String} :
    check path = .error .noExtension ↔ ending? path = none := by
  rw [check_eq]
  rcases ending? path with _ | ending
  · simp
  · by_cases haccepted : ending = "s" ∨ ending = "asm"
    · simp [haccepted]
    · simp [haccepted]

theorem check_eq_wrongExtension_iff {path text : String} :
    check path = .error (.wrongExtension text) ↔
      ending? path = some text ∧ ¬(text = "s" ∨ text = "asm") := by
  rw [check_eq]
  rcases ending? path with _ | ending
  · simp
  · simp only [Option.some.injEq]
    split
    · rename_i haccepted
      constructor
      · intro herror
        contradiction
      · rintro ⟨rfl, hother⟩
        exact absurd haccepted hother
    · rename_i hother
      constructor
      · intro herror
        cases herror
        exact ⟨rfl, hother⟩
      · rintro ⟨rfl, -⟩
        rfl

theorem Flaw.message_injective : Function.Injective Flaw.message := by
  have hapart : ∀ text : String,
      message .noExtension ≠ message (.wrongExtension text) := by
    intro text hmessage
    have hfirst : ("Invalid file extension: " ++ text ++
        " (expected .s or .asm)").toList.head? = some 'I' := by
      simp
    exact absurd ((congrArg (·.toList.head?) hmessage).trans hfirst) (by decide)
  intro flaw other hmessage
  cases flaw with
  | noExtension =>
      cases other with
      | noExtension => rfl
      | wrongExtension text => exact absurd hmessage (hapart text)
  | wrongExtension text =>
      cases other with
      | noExtension => exact absurd hmessage.symm (hapart text)
      | wrongExtension other =>
          have htexts : "Invalid file extension: " ++ text ++
                " (expected .s or .asm)" =
              "Invalid file extension: " ++ other ++
                " (expected .s or .asm)" := hmessage
          rw [String.append_left_inj, String.append_right_inj] at htexts
          rw [htexts]

theorem mapError_message_eq_iff (path : String) (flaw : Flaw) :
    (check path).mapError Flaw.message = .error flaw.message ↔
      check path = .error flaw := by
  rcases check path with found | accepted
  · simp [Except.mapError, Flaw.message_injective.eq_iff]
  · simp [Except.mapError]

/-- A path is accepted exactly if it has a naming that ends in `s` or `asm`, and
refused with its ending exactly if it has a naming that ends otherwise. -/
theorem check_decides_naming (path : String) :
    (check path = .ok path ↔
      ∃ naming : Naming, naming.path = path ∧
        (naming.ending = "s" ∨ naming.ending = "asm")) ∧
    (∀ text, (check path).mapError Flaw.message =
        .error ("Invalid file extension: " ++ text ++
          " (expected .s or .asm)") ↔
      ∃ naming : Naming, naming.path = path ∧ naming.ending = text ∧
        ¬(naming.ending = "s" ∨ naming.ending = "asm") ∧
        naming.name ≠ "..") ∧
    ((check path).mapError Flaw.message = .error "No file extension" ↔
      ¬∃ naming : Naming, naming.path = path ∧
        ((naming.ending = "s" ∨ naming.ending = "asm") ∨
          naming.name ≠ "..")) := by
  refine ⟨?_, ?_, ?_⟩
  · rw [check_eq_ok_iff]
    constructor
    · rintro ⟨ending, hending, haccepted⟩
      obtain ⟨naming, hpath, rfl, -⟩ := exists_naming_of_ending? hending
      exact ⟨naming, hpath, haccepted⟩
    · rintro ⟨naming, rfl, haccepted⟩
      have hname := naming.name_ne_parent haccepted
      exact ⟨naming.ending, naming.ending?_path hname, haccepted⟩
  · intro text
    apply (mapError_message_eq_iff path (.wrongExtension text)).trans
    rw [check_eq_wrongExtension_iff]
    constructor
    · rintro ⟨hending, hother⟩
      obtain ⟨naming, hpath, rfl, hname⟩ := exists_naming_of_ending? hending
      exact ⟨naming, hpath, rfl, hother, hname⟩
    · rintro ⟨naming, rfl, rfl, hother, hname⟩
      exact ⟨naming.ending?_path hname, hother⟩
  · apply (mapError_message_eq_iff path .noExtension).trans
    rw [check_eq_noExtension_iff]
    constructor
    · rintro hnone ⟨naming, rfl, hreads⟩
      have hname := hreads.elim naming.name_ne_parent id
      simp [naming.ending?_path hname] at hnone
    · intro hunnamed
      apply Option.eq_none_iff_forall_ne_some.mpr
      intro ending hending
      obtain ⟨naming, hpath, -, hname⟩ := exists_naming_of_ending? hending
      exact hunnamed ⟨naming, hpath, .inr hname⟩

/-- A dot that starts a name hides the file, unless another one follows. -/
example : check "out/..s//./" = .ok "out/..s//./" ∧
    check "out.s/.s" = .error .noExtension ∧
    check "out.s/a./." = .error (.wrongExtension "") := by
  decide

end SpimGen.OutputPath
