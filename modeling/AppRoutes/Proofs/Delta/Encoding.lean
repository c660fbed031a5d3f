/-
Entries as literals.

An entry that sets a key is written as its name, an equals sign and its value, and a list of values
with semicolons between them.  Reading undoes writing and writing undoes reading, so the literals
that are accepted and the entries that can be written correspond one to one; nothing is lost or
made up at separators that are doubled or stand at an end.
-/
import AppRoutes.Proofs.Delta.Literal
import Mathlib.Data.Set.Function

namespace AppRoutes.Literal
open Text

theorem parseConfig_eq_ok_iff {literal : String} {entry : Entry String} :
    parseConfig literal = .ok entry ↔
      ∃ name value, IsName name ∧ literal = name ++ "=" ++ value ∧ entry = .set name value := by
  refine bind_cutName_eq_ok_iff.trans ⟨?_, ?_⟩
  · rintro ⟨name, text, h⟩
    exact ⟨name, String.ofList text, h⟩
  · rintro ⟨name, value, hname, hliteral, hentry⟩
    refine ⟨name, value.toList, hname, ?_, ?_⟩
    · rw [hliteral, String.ofList_toList]
    · rw [hentry, String.ofList_toList]

/-- Values that a literal can carry: at least one, and none with a semicolon. -/
def IsValueList (values : List String) : Prop :=
  values ≠ [] ∧ ∀ value ∈ values, ';' ∉ value.toList

theorem toList_intercalate_semicolon (values : List String) :
    (";".intercalate values).toList = join ';' (values.map String.toList) := by
  rw [String.toList_intercalate, join_eq_intercalate]
  rfl

/-- The values of a text are a list that is written as the text, and no other list is. -/
theorem map_split_eq_iff {text : List Char} {values : List String} :
    (split ';' text).map String.ofList = values ↔
      IsValueList values ∧ String.ofList text = ";".intercalate values := by
  constructor
  · rintro rfl
    refine ⟨⟨by simpa using split_ne_nil ';' text, fun value hvalue => ?_⟩, ?_⟩
    · obtain ⟨part, hpart, rfl⟩ := List.mem_map.mp hvalue
      rw [String.toList_ofList]
      exact separator_not_mem_of_mem_split hpart
    · rw [← String.toList_inj, toList_intercalate_semicolon, List.map_map]
      simp [Function.comp_def, join_split]
  · rintro ⟨⟨hne, hvalues⟩, htext⟩
    have hparts : ∀ part ∈ values.map String.toList, ';' ∉ part := by
      intro part hpart
      obtain ⟨value, hvalue, rfl⟩ := List.mem_map.mp hpart
      exact hvalues value hvalue
    rw [← String.toList_inj, String.toList_ofList, toList_intercalate_semicolon] at htext
    rw [htext, split_join (by simpa using hne) hparts]
    simp [Function.comp_def]

theorem parseHeader_eq_ok_iff {literal : String} {entry : Entry (List String)} :
    parseHeader literal = .ok entry ↔
      ∃ name values, IsName name ∧ IsValueList values ∧
        literal = name ++ "=" ++ ";".intercalate values ∧ entry = .set name values := by
  refine (@bind_cutName_eq_ok_iff _ .header (fun text => (split ';' text).map String.ofList)
    literal entry).trans ⟨?_, ?_⟩
  · rintro ⟨name, text, hname, hliteral, hentry⟩
    obtain ⟨hvalues, htext⟩ := map_split_eq_iff.mp (rfl : (split ';' text).map String.ofList = _)
    exact ⟨name, _, hname, hvalues, htext ▸ hliteral, hentry⟩
  · rintro ⟨name, values, hname, hvalues, hliteral, hentry⟩
    refine ⟨name, (";".intercalate values).toList, hname, ?_, ?_⟩
    · rw [hliteral, String.ofList_toList]
    · rw [hentry, map_split_eq_iff.mpr ⟨hvalues, String.ofList_toList⟩]

/-- Literals and the entries that set a name to a value that fits are two forms of the same: the
accepted literals are those with a name before their first equals sign, each is the name and the
value of its entry in writing, each such pair is written by one literal, and any other text is
refused with an error that quotes it. -/
structure Encodes {α : Type} (target : Target) (Fits : α → Prop) (write : α → String)
    (read : String → Except Error (Entry α)) : Prop where
  accepts : ∀ literal, (∃ entry, read literal = .ok entry) ↔
    '=' ∈ literal.toList ∧ literal.toList.head? ≠ some '='
  reads : ∀ literal entry, read literal = .ok entry ↔
    ∃ name value, IsName name ∧ Fits value ∧ literal = name ++ "=" ++ write value ∧
      entry = .set name value
  bijective : Set.BijOn (fun pair : String × α => pair.1 ++ "=" ++ write pair.2)
    {pair | IsName pair.1 ∧ Fits pair.2}
    {literal | '=' ∈ literal.toList ∧ literal.toList.head? ≠ some '='}
  refuses : ∀ literal, ¬ ('=' ∈ literal.toList ∧ literal.toList.head? ≠ some '=') →
    read literal =
      .error (.validation ("invalid " ++ target.name ++ " '" ++ literal ++
        "': expected NAME=VALUE"))

theorem not_isMalformed_iff {literal : String} :
    ¬ IsMalformed literal ↔ '=' ∈ literal.toList ∧ literal.toList.head? ≠ some '=' := by
  rw [IsMalformed, not_or, not_not]

theorem Guards.encodes {α : Type} {target : Target} {Fits : α → Prop} {write : α → String}
    {read : String → Except Error (Entry α)} (h : Guards target read)
    (hreads : ∀ literal entry, read literal = .ok entry ↔
      ∃ name value, IsName name ∧ Fits value ∧ literal = name ++ "=" ++ write value ∧
        entry = .set name value) : Encodes target Fits write read := by
  have haccepts : ∀ literal, (∃ entry, read literal = .ok entry) ↔
      '=' ∈ literal.toList ∧ literal.toList.head? ≠ some '=' := by
    intro literal
    rw [← not_isMalformed_iff]
    refine ⟨?_, h.accepts literal⟩
    rintro ⟨entry, hentry⟩ hmalformed
    rw [h.refuses literal hmalformed] at hentry
    cases hentry
  refine ⟨haccepts, hreads, ⟨?maps, ?injective, ?surjective⟩, ?refuses⟩
  case maps =>
    rintro ⟨name, value⟩ ⟨hname, hvalue⟩
    exact (haccepts _).mp ⟨_, (hreads _ _).mpr ⟨name, value, hname, hvalue, rfl, rfl⟩⟩
  case injective =>
    rintro ⟨name, value⟩ ⟨hname, hvalue⟩ ⟨name', value'⟩ ⟨hname', hvalue'⟩ heq
    have hfirst := (hreads _ _).mpr ⟨name, value, hname, hvalue, rfl, rfl⟩
    have hsecond := (hreads _ _).mpr ⟨name', value', hname', hvalue', heq, rfl⟩
    obtain ⟨rfl, hchange⟩ := Entry.mk.inj (Except.ok.inj (hfirst.symm.trans hsecond))
    rw [Change.set.inj hchange]
  case surjective =>
    intro literal hliteral
    obtain ⟨entry, hentry⟩ := (haccepts literal).mpr hliteral
    obtain ⟨name, value, hname, hvalue, heq, -⟩ := (hreads literal entry).mp hentry
    exact ⟨(name, value), ⟨hname, hvalue⟩, heq.symm⟩
  case refuses =>
    intro literal hliteral
    exact h.refuses literal (Decidable.of_not_not (mt not_isMalformed_iff.mp hliteral))

/-- Literals for the two maps lose nothing: texts of any kind are values of the one, and lists of
one or more texts without semicolons are values of the other. -/
theorem literals_encode_entries :
    Encodes .config (fun _ => True) id parseConfig ∧
      Encodes .header IsValueList (";".intercalate ·) parseHeader := by
  refine ⟨guards_parseConfig.encodes fun literal entry => ?_,
    guards_parseHeader.encodes fun literal entry => parseHeader_eq_ok_iff⟩
  rw [parseConfig_eq_ok_iff]
  simp only [true_and, id]

/-- Separators at the ends stand beside empty values, and a later equals sign is part of one. -/
example : parseHeader "-a=;b=;" = .ok (.set "-a" ["", "b=", ""]) := by
  decide

end AppRoutes.Literal
