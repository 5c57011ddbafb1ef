/-
String literals over any history.  Labels are assigned, texts are interned and
texts are recorded under arbitrary names, in any order.  The text of a label is
the one recorded last for it: by the call that interned it, or under its very
name, be it before or after the label was assigned.  The declarations list the
labels in the order in which they were handed out, each with that text, as long
as the numbers of the labels have not gone round.
-/
import SpimGen.Compilation
import SpimGen.Proofs.UniqueDecoding

namespace SpimGen

/-- Different labels have different texts. -/
theorem StringLabel.text_injective : Function.Injective StringLabel.text := by
  intro first second htext
  have hdigits : toString first.index = toString second.index :=
    (String.append_right_inj "__str").mp htext
  have hindex : some first.index = some second.index := by
    rw [← readDigits_repr first.index, ← readDigits_repr second.index]
    exact congrArg (fun text => readDigits text.toList) hdigits
  rw [← ofIndex_index first, Option.some.inj hindex, ofIndex_index]

/-- Interning a text records it for the fresh label and leaves every other label
alone. -/
theorem Compilation.resolve_intern (text : String) (compilation : Compilation)
    (label : StringLabel) :
    (intern text compilation).state.literals.resolve label.text =
      if label = compilation.labels.fresh then some text
      else compilation.literals.resolve label.text := by
  by_cases hlabel : label = compilation.labels.fresh
  · rw [if_pos hlabel, hlabel]
    exact Literals.resolve_insert_self _ _ text
  · rw [if_neg hlabel]
    apply Literals.resolve_insert_of_ne
    intro htext
    exact hlabel (StringLabel.text_injective htext)

inductive LiteralCall where
  | assign
  | intern (text : String)
  | insert (name text : String)
deriving Repr, DecidableEq

namespace LiteralCall

def perform : LiteralCall → Action Compilation (Option StringLabel)
  | .assign => do return some (← Compilation.assignLabel)
  | .intern text => do return some (← Compilation.intern text)
  | .insert name text => do
      Compilation.insertLiteral name text
      return none

/-- Whether the call hands a label out. -/
def assigns : LiteralCall → Bool
  | .assign => true
  | .intern _ => true
  | .insert _ _ => false

/-- The compilation after some calls. -/
def follow : Compilation → List LiteralCall → Compilation
  | compilation, [] => compilation
  | compilation, call :: calls => follow (call.perform compilation).state calls

/-- The calls, each with its result. -/
def history : Compilation → List LiteralCall →
    List (LiteralCall × Except Fault (Option StringLabel))
  | _, [] => []
  | compilation, call :: calls =>
      (call, (call.perform compilation).result)
        :: history (call.perform compilation).state calls

/-- The label that a call has handed out. -/
def label? : LiteralCall × Except Fault (Option StringLabel) →
    Option StringLabel
  | (_, .ok label) => label
  | (_, .error _) => none

/-- The text that a call has recorded for the label with a number. -/
def recorded? (number : Nat) :
    LiteralCall × Except Fault (Option StringLabel) → Option String
  | (.assign, _) => none
  | (.intern text, result) =>
      if result = .ok (some (.ofIndex number)) then some text else none
  | (.insert name text, _) =>
      if name = "__str" ++ toString number then some text else none

/-- The text recorded last for the label with a number. -/
def lastText? (number : Nat)
    (history : List (LiteralCall × Except Fault (Option StringLabel))) :
    Option String :=
  (history.filterMap (recorded? number)).getLast?

/-! ### One call -/

theorem perform_intern (text : String) (compilation : Compilation) :
    (intern text).perform compilation =
      ⟨.ok (some compilation.labels.fresh),
        { compilation with
          labels := compilation.labels.advance
          literals := compilation.literals.insert
            compilation.labels.fresh.text text },
        [.labelAssigned compilation.labels.fresh]⟩ :=
  rfl

theorem perform_insert (name text : String) (compilation : Compilation) :
    (insert name text).perform compilation =
      ⟨.ok none,
        { compilation with
          literals := compilation.literals.insert name text }, []⟩ :=
  rfl

/-- A call moves the labels on if it hands one out, and touches neither the pool
nor the frame nor the emitter. -/
theorem perform_state (call : LiteralCall) (compilation : Compilation) :
    ∃ literals, (call.perform compilation).state =
      { compilation with
        labels := if call.assigns then compilation.labels.advance
          else compilation.labels
        literals } := by
  cases call with
  | assign => exact ⟨compilation.literals, rfl⟩
  | intern text =>
      exact ⟨compilation.literals.insert compilation.labels.fresh.text text, rfl⟩
  | insert name text => exact ⟨compilation.literals.insert name text, rfl⟩

theorem label?_perform (call : LiteralCall) (compilation : Compilation) :
    label? (call, (call.perform compilation).result) =
      if call.assigns then some compilation.labels.fresh else none := by
  cases call <;> rfl

/-- What is recorded for a label after a call is what the call recorded, or else
what was recorded before. -/
theorem resolve_perform (call : LiteralCall) (compilation : Compilation)
    (label : StringLabel) :
    (call.perform compilation).state.literals.resolve label.text =
      (recorded? label.index (call, (call.perform compilation).result)).or
        (compilation.literals.resolve label.text) := by
  cases call with
  | assign => rfl
  | intern text =>
      have hrecorded : recorded? label.index
          (intern text, ((intern text).perform compilation).result) =
            if label = compilation.labels.fresh then some text else none := by
        simp only [perform_intern, recorded?, StringLabel.ofIndex_index,
          Except.ok.injEq, Option.some.injEq]
        exact if_congr eq_comm rfl rfl
      have hintern := Compilation.resolve_intern text compilation label
      rw [hrecorded]
      change (Compilation.intern text compilation).state.literals.resolve _ = _
      rw [hintern]
      split
      · rfl
      · rfl
  | insert name text =>
      have hrecorded : recorded? label.index
          (insert name text, ((insert name text).perform compilation).result) =
            if name = label.text then some text else none := rfl
      rw [hrecorded, perform_insert]
      by_cases hname : name = label.text
      · simp [hname]
      · simp [hname, Literals.resolve_insert_of_ne _ _ (Ne.symm hname)]

/-! ### Any calls -/

theorem follow_eq (compilation : Compilation) (calls : List LiteralCall) :
    ∃ literals, follow compilation calls =
      { compilation with
        labels := ⟨compilation.labels.next + .ofNat (calls.countP assigns)⟩
        literals } := by
  induction calls generalizing compilation with
  | nil => exact ⟨compilation.literals, by simp [follow]⟩
  | cons call calls ih =>
      obtain ⟨recorded, hstate⟩ := perform_state call compilation
      obtain ⟨literals, hrest⟩ := ih (call.perform compilation).state
      refine ⟨literals, ?_⟩
      rw [follow, hrest, hstate, List.countP_cons]
      cases call.assigns with
      | false => rfl
      | true =>
          simp [LabelTable.advance, UInt32.ofNat_add, UInt32.add_assoc,
            UInt32.add_comm 1]

/-- Labels are handed out by number, from the first one not yet assigned. -/
theorem filterMap_label?_history (compilation : Compilation)
    (calls : List LiteralCall) :
    (history compilation calls).filterMap label? =
      (List.range (calls.countP assigns)).map fun number =>
        ⟨compilation.labels.next + .ofNat number⟩ := by
  induction calls generalizing compilation with
  | nil => rfl
  | cons call calls ih =>
      obtain ⟨recorded, hstate⟩ := perform_state call compilation
      rw [history, List.filterMap_cons, label?_perform, ih, hstate,
        List.countP_cons]
      cases hassigns : call.assigns with
      | false => simp
      | true =>
          simp [List.range_succ_eq_map, LabelTable.fresh, LabelTable.advance,
            Function.comp_def, UInt32.ofNat_add, UInt32.add_assoc,
            UInt32.add_comm 1]

section

variable {compilation : Compilation} (hlabels : compilation.labels = {})
  (calls : List LiteralCall)

include hlabels

/-- The label that comes next has the number of those handed out. -/
theorem fresh_follow :
    (follow compilation calls).labels.fresh =
      .ofIndex (calls.countP assigns) := by
  obtain ⟨literals, hfollow⟩ := follow_eq compilation calls
  rw [hfollow, hlabels]
  exact congrArg StringLabel.mk (UInt32.zero_add _)

theorem map_index_history (hcalls : calls.countP assigns < UInt32.size) :
    ((history compilation calls).filterMap label?).map StringLabel.index =
      List.range (calls.countP assigns) := by
  rw [filterMap_label?_history, hlabels, List.map_map]
  apply (List.map_congr_left ?_).trans (List.map_id _)
  intro number hnumber
  have hword : number < UInt32.size :=
    Nat.lt_trans (List.mem_range.mp hnumber) hcalls
  calc StringLabel.index ⟨0 + .ofNat number⟩
      = (StringLabel.ofIndex number).index := by
        rw [UInt32.zero_add]
        rfl
    _ = number := StringLabel.index_ofIndex hword

end

theorem resolve_follow (compilation : Compilation) (calls : List LiteralCall)
    (label : StringLabel) :
    (follow compilation calls).literals.resolve label.text =
      (lastText? label.index (history compilation calls)).or
        (compilation.literals.resolve label.text) := by
  induction calls generalizing compilation with
  | nil => rfl
  | cons call calls ih =>
      rw [follow, ih, resolve_perform, lastText?, lastText?, history,
        List.filterMap_cons]
      cases recorded? label.index (call, (call.perform compilation).result) with
      | none => rfl
      | some text => simp [List.getLast?_cons]

end LiteralCall

/-! ### Declarations -/

/-- The data section that declares so many labels with their texts. -/
def declarationText (text : Nat → String) (count : Nat) : String :=
  ".data\n" ++ String.join ((List.range count).map fun number =>
    "__str" ++ toString number ++ ": .asciiz \"" ++ text number ++ "\"\n")

/-- The lines of that data section. -/
def declarationLines (text : Nat → String) (count : Nat) :
    List (Line Register) :=
  .dataSection :: (List.range count).map fun number =>
    .string ("__str" ++ toString number) (text number)

theorem listingText_eq_join (lines : List (Line Register)) :
    listingText lines =
      String.join (lines.map fun line => line.render ++ "\n") := by
  induction lines with
  | nil => rfl
  | cons line lines ih => rw [listingText, ih, List.map_cons, String.join_cons]

theorem listing_declarationLines (text : Nat → String) (count : Nat) :
    listing (declarationLines text count) =
      (declarationText text count).toUTF8.data.toList := by
  have hlines : listingText (declarationLines text count) =
      declarationText text count := by
    rw [listingText_eq_join, declarationLines, List.map_cons, List.map_map,
      String.join_cons, declarationText]
    congr 3
    funext number
    simp only [Function.comp_apply, Line.render, String.append_assoc]
    rfl
  rw [listing_eq_toUTF8, hlines]

/-- A computation fails on a list as it does on the first entry on which it
fails. -/
theorem mapM_eq_error_of_split {α β ε : Type} {look : α → Except ε β}
    {before rest : List α} {entry : α} {fault : ε}
    (hbefore : ∀ other ∈ before, ∃ value, look other = .ok value)
    (hentry : look entry = .error fault) :
    (before ++ entry :: rest).mapM look = .error fault := by
  induction before with
  | nil =>
      rw [List.nil_append, List.mapM_cons, hentry]
      rfl
  | cons first before ih =>
      obtain ⟨⟨value, hfirst⟩, hothers⟩ := List.forall_mem_cons.mp hbefore
      rw [List.cons_append, List.mapM_cons, hfirst, ih hothers]
      rfl

namespace LabelTable

variable {table : LabelTable} {literals : Literals}

theorem declarations_of_texts {text : Nat → String}
    (htext : ∀ number < table.count,
      literals.resolve (StringLabel.ofIndex number).text =
        some (text number)) :
    table.declarations literals =
      .ok ((List.range table.count).map fun number =>
        .string ("__str" ++ toString number) (text number)) := by
  have hlabels : ∀ label ∈ table.labels, literals.declaration label =
      .ok (.string label.text (text label.index)) := by
    intro label hlabel
    rw [mem_labels_iff] at hlabel
    have hresolve := htext label.index hlabel
    rw [StringLabel.ofIndex_index] at hresolve
    rw [Literals.declaration, hresolve]
  rw [declarations, mapM_eq_ok_map hlabels, labels, List.map_map]
  congr 1
  apply List.map_congr_left
  intro number hnumber
  have hword : number < UInt32.size :=
    Nat.lt_trans (List.mem_range.mp hnumber) table.count_lt
  rw [Function.comp_apply, StringLabel.text_ofIndex hword,
    StringLabel.index_ofIndex hword]

theorem declarations_of_missing {number : Nat} (hnumber : number < table.count)
    (hmissing : literals.resolve (StringLabel.ofIndex number).text = none)
    (hearlier : ∀ earlier < number,
      literals.resolve (StringLabel.ofIndex earlier).text ≠ none) :
    table.declarations literals =
      .error (.unresolvedLabel (.ofIndex number)) := by
  have hbefore : ∀ label ∈ (List.range number).map StringLabel.ofIndex,
      ∃ request, literals.declaration label = .ok request := by
    intro label hlabel
    obtain ⟨earlier, hlt, rfl⟩ := List.mem_map.mp hlabel
    obtain ⟨text, htext⟩ := Option.ne_none_iff_exists'.mp
      (hearlier earlier (List.mem_range.mp hlt))
    exact ⟨.string _ text, by rw [Literals.declaration, htext]⟩
  have hentry : literals.declaration (.ofIndex number) =
      .error (.unresolvedLabel (.ofIndex number)) := by
    rw [Literals.declaration, hmissing]
  obtain ⟨rest, hsplit⟩ := labels_split hnumber
  rw [declarations, hsplit]
  exact mapM_eq_error_of_split hbefore hentry

end LabelTable

namespace Emitter

variable {table : LabelTable} {literals : Literals} {text : Nat → String}

/-- Declaring labels that have texts writes the lines of their data section. -/
theorem declare_eq_each_write (emitter : Emitter)
    (htext : ∀ number < table.count,
      literals.resolve (StringLabel.ofIndex number).text =
        some (text number)) :
    (declare table literals emitter).result =
        (Action.each write (declarationLines text table.count) emitter).result ∧
      (declare table literals emitter).state =
        (Action.each write (declarationLines text table.count) emitter).state := by
  -- Neither line of a declaration has an annotation.
  have hlines : (Emission.dataSection :: (List.range table.count).map
      fun number => .string ("__str" ++ toString number) (text number)).flatMap
        (Emission.lines emitter.annotate) =
      declarationLines text table.count := by
    rw [declarationLines, List.flatMap_cons, List.flatMap_map,
      List.map_eq_flatMap]
    cases emitter.annotate <;> rfl
  rw [declare_of_ok (LabelTable.declarations_of_texts htext), hlines]
  exact ⟨rfl, rfl⟩

theorem declare_of_texts {emitter : Emitter}
    (hroom : emitter.sink.terms.room = none)
    (htext : ∀ number < table.count,
      literals.resolve (StringLabel.ofIndex number).text =
        some (text number)) :
    (declare table literals emitter).result = .ok () ∧
      (declare table literals emitter).state =
        emitter.receive (declarationText text table.count).toUTF8.data.toList
          (table.count + 1) := by
  have hfits : ∀ room, emitter.sink.terms.room = some room →
      (listing (declarationLines text table.count)).length ≤ room := by
    simp [hroom]
  obtain ⟨hresult, hstate⟩ := emitter.declare_eq_each_write htext
  rw [hresult, hstate, each_write_of_fits hfits, listing_declarationLines]
  simp [declarationLines]

end Emitter

/-- After any calls that hand out fewer than `2 ^ 32` labels, these are numbered
in the order in which they were handed out, and the declarations give each of
them the text that was recorded last for it. -/
theorem Compilation.declareLiterals_of_history (pool : Pool Mips.catalog)
    (frame : Frame) (emitter : Emitter)
    (hroom : emitter.sink.terms.room = none) (calls : List LiteralCall)
    (hcalls : calls.countP LiteralCall.assigns < UInt32.size) :
    let start : Compilation := { pool, frame, emitter }
    let history := LiteralCall.history start calls
    let reached := LiteralCall.follow start calls
    let count := calls.countP LiteralCall.assigns
    reached.emitter = emitter ∧
    (history.filterMap LiteralCall.label?).map StringLabel.index =
      List.range count ∧
    (∀ text : Nat → String,
      (∀ number < count,
        LiteralCall.lastText? number history = some (text number)) →
      (declareLiterals reached).result = .ok () ∧
      (declareLiterals reached).state.emitter.sink.written =
        emitter.sink.written ++
          (declarationText text count).toUTF8.data.toList ∧
      (declareLiterals reached).state.emitter.lines =
        emitter.lines + (count + 1)) ∧
    (∀ number < count, LiteralCall.lastText? number history = none →
      (∀ earlier < number, LiteralCall.lastText? earlier history ≠ none) →
      (declareLiterals reached).result =
        .error (.unresolvedLabel (.ofIndex number)) ∧
      (declareLiterals reached).state = reached) ∧
    ∀ text : String,
      (intern text reached).result = .ok (.ofIndex count) ∧
      ∀ label : StringLabel,
        (intern text reached).state.literals.resolve label.text =
          if label.index = count then some text
          else reached.literals.resolve label.text := by
  intro start history reached count
  have hemitter : reached.emitter = emitter := by
    obtain ⟨literals, hreached⟩ := LiteralCall.follow_eq start calls
    rw [show reached = _ from hreached]
  have hfresh : reached.labels.fresh = .ofIndex count :=
    LiteralCall.fresh_follow rfl calls
  have hcount : reached.labels.count = count :=
    (congrArg StringLabel.index hfresh).trans (StringLabel.index_ofIndex hcalls)
  have hresolve : ∀ number < count,
      reached.literals.resolve (StringLabel.ofIndex number).text =
        LiteralCall.lastText? number history := by
    intro number hnumber
    rw [show reached.literals.resolve _ = _ from
      LiteralCall.resolve_follow start calls (.ofIndex number),
      StringLabel.index_ofIndex (hnumber.trans hcalls)]
    exact Option.or_none
  refine ⟨hemitter, ?_, ?_, ?_, ?_⟩
  · exact LiteralCall.map_index_history rfl calls hcalls
  · intro text htext
    have hlabelled : ∀ number < reached.labels.count,
        reached.literals.resolve (StringLabel.ofIndex number).text =
          some (text number) := by
      intro number hnumber
      rw [hcount] at hnumber
      rw [hresolve number hnumber, htext number hnumber]
    obtain ⟨hresult, hstate⟩ := Emitter.declare_of_texts hroom hlabelled
    rw [hcount] at hstate
    rw [declareLiterals, onEmitter, Action.within, hemitter, hstate]
    exact ⟨hresult, rfl, rfl⟩
  · intro number hnumber hmissing hearlier
    have hfault : reached.labels.declarations reached.literals =
        .error (.unresolvedLabel (.ofIndex number)) := by
      apply LabelTable.declarations_of_missing (hnumber.trans_eq hcount.symm)
      · rw [hresolve number hnumber, hmissing]
      · intro earlier hlt
        rw [hresolve earlier (hlt.trans hnumber)]
        exact hearlier earlier hlt
    rw [declareLiterals, onEmitter, Action.within,
      Emitter.declare_of_error hfault]
    exact ⟨rfl, rfl⟩
  · intro text
    refine ⟨congrArg Except.ok hfresh, fun label => ?_⟩
    rw [resolve_intern, hfresh]
    exact if_congr (StringLabel.eq_ofIndex_iff hcalls) rfl rfl

/-- Calls that record texts before a label is assigned, after it was interned,
and under names that only look like labels. -/
def LiteralCall.crossed : List LiteralCall :=
  [.insert "__str1" "early", .intern "first", .insert "__str01" "padded",
   .assign, .insert "__str0" "late", .intern "third"]

theorem Compilation.declareLiterals_crossed :
    ({} : Emitter).sink.terms.room = none ∧
    LiteralCall.crossed.countP LiteralCall.assigns < UInt32.size ∧
    let reached := LiteralCall.follow
      { pool := Pool.new Mips.catalog, emitter := {} } LiteralCall.crossed
    (declareLiterals reached).result = .ok () ∧
    (declareLiterals reached).state.emitter.sink.written =
      (".data\n__str0: .asciiz \"late\"\n__str1: .asciiz \"early\"\n" ++
        "__str2: .asciiz \"third\"\n").toUTF8.data.toList := by
  refine ⟨rfl, by decide, ?_⟩
  obtain ⟨_, _, hdeclared, _⟩ := declareLiterals_of_history
    (Pool.new Mips.catalog) {} {} rfl LiteralCall.crossed (by decide)
  obtain ⟨hresult, hwritten, _⟩ := hdeclared
    (fun number => ["late", "early", "third"].getD number "") (by decide)
  refine ⟨hresult, hwritten.trans ?_⟩
  decide

end SpimGen
