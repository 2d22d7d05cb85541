import PerfFormula.Proofs.PlainScalars
import PerfFormula.Proofs.QuotedScalars
import PerfFormula.Proofs.TextDocuments

/-!
# Characters of written YAML

Whatever the texts of a document hold, it is written in printable ASCII and line feeds, all of which
may stand in a YAML text: what is neither is escaped.

Main statements:

* `Yaml.all_writeText` — a text is written in such characters.
* `Yaml.shown_of_textual` — a document of texts is written in such characters.
-/

namespace PerfFormula
namespace Yaml

/-! ## Texts -/

/-- Whether a character is a line feed or a printable character of ASCII. -/
def isShown (c : Char) : Bool := c == '\n' || isPlainAscii c

theorem isAllowed_of_isShown {c : Char} (h : isShown c = true) : isAllowed c = true := by
  rcases Bool.or_eq_true_iff.1 h with feed | ascii
  · rw [beq_iff_eq.1 feed]
    decide
  · have bounds := bounds_of_isPlainAscii ascii
    simp [isAllowed, bounds]

theorem all_newLine (indent : Nat) : (newLine indent).all isShown = true := by
  have space : isShown ' ' = true := by decide
  have feed : isShown '\n' = true := by decide
  simp [newLine, List.all_replicate, space, feed]

theorem all_doubleQuotes {cs : List Char} (h : cs.all isShown = true) :
    (doubleQuotes cs).all isShown = true := by
  have quote : isShown '\'' = true := by decide
  rw [doubleQuotes, List.all_flatMap, List.all_eq_true]
  intro c hc
  have shown := List.all_eq_true.1 h c hc
  split_ifs <;> simp [quote, shown]

theorem all_writeRuns {rs : List (List Char)} (h : rs.flatten.all isShown = true) (indent : Nat)
    (first quoted : Bool) (column : Nat) :
    (writeRuns indent first quoted column rs).all isShown = true := by
  have feed : isShown '\n' = true := by decide
  have space : isShown ' ' = true := by decide
  induction rs generalizing first column with
  | nil => rfl
  | cons run more ih =>
    rw [List.flatten_cons, List.all_append, Bool.and_eq_true] at h
    have later := ih h.2
    rw [writeRuns]
    split_ifs
    · simp [all_newLine, later]
    · simp [feed, space, h.1, later, List.all_replicate]
    · simp [all_doubleQuotes h.1, later]
    · simp [h.1, later]

theorem all_escape (c : Char) : (escape c).all isShown = true := by
  have of_ascii {cs : List Char} (h : ∀ c ∈ cs, isPlainAscii c = true) : cs.all isShown = true :=
    List.all_eq_true.2 fun c hc => by rw [isShown, h c hc, Bool.or_true]
  have digits {letter : Char} (ascii : isPlainAscii letter = true) {width : Nat}
      (fits : c.toNat < Nat.pow 16 (width + 1)) :
      ∀ d ∈ '\\' :: letter :: upperHex (width + 1) c.toNat, isPlainAscii d = true :=
    List.forall_mem_cons.2 ⟨by decide, List.forall_mem_cons.2 ⟨ascii, isPlainAscii_upperHex fits⟩⟩
  refine of_ascii ?_
  -- the backslash, the letter and the digits are all printable ASCII
  unfold escape
  split
  · next letter found =>
    simpa using ⟨by decide, (letterEscape?_escapeLetter found).1⟩
  · simp only
    split_ifs with ascii small middle
    · simpa using ascii
    · exact digits (by decide) small
    · exact digits (by decide) middle
    · exact digits (by decide) (Text.toNat_lt_pow c)

theorem all_breakQuoted (indent : Nat) (nextIsSpace : Bool) :
    (breakQuoted indent nextIsSpace).1.all isShown = true := by
  have backslash : isShown '\\' = true := by decide
  cases nextIsSpace <;> simp [breakQuoted, all_newLine, backslash]

theorem all_singleton {c : Char} (h : (escape c).length = 1) : [c].all isShown = true := by
  rcases escape_cases c with ⟨-, ascii, -⟩ | ⟨long, -⟩
  · simp [isShown, ascii]
  · exact absurd h long

theorem all_writeEscaped {pending : List Char} (h : pending.all isShown = true) (indent : Nat)
    (first : Bool) (column : Nat) (cs : List Char) :
    (writeEscaped indent first column pending cs).all isShown = true := by
  have broken {nextIsSpace : Bool} {ending : List Char} {column : Nat}
      (h : breakQuoted indent nextIsSpace = (ending, column)) : ending.all isShown = true := by
    have shown := all_breakQuoted indent nextIsSpace
    rwa [h] at shown
  fun_induction writeEscaped indent first column pending cs with
  | case1 => simpa using h
  | case2 _ _ _ c _ _ _ short _ _ _ ends ih =>
    have later := ih (all_singleton (beq_iff_eq.1 short))
    simp [h, broken ends, later]
  | case3 _ _ _ c _ _ _ short _ ih =>
    have single := all_singleton (beq_iff_eq.1 short)
    exact ih (by simpa [h] using single)
  | case4 _ _ _ c _ _ _ _ shown _ _ _ _ ends ih =>
    simp [shown, h, broken ends, all_escape, ih rfl]
  | case5 _ _ _ c _ _ _ _ shown _ _ ih => simp [shown, h, all_escape, ih rfl]

theorem all_writeText (indent column : Nat) (cs : List Char) :
    (writeText indent column cs).all isShown = true := by
  have whole : (runs cs).flatten = cs := (divided_runs cs).2
  rw [writeText]
  cases style : chooseStyle cs with
  | plain =>
    have shown : (runs cs).flatten.all isShown = true := by
      rw [whole, List.all_eq_true]
      intro c hc
      rw [isShown, (bare_of_plain style).ascii c hc, Bool.or_true]
    exact all_writeRuns shown indent true false column
  | singleQuoted =>
    have quote : isShown '\'' = true := by decide
    have shown : (runs cs).flatten.all isShown = true := by
      rw [whole, List.all_eq_true]
      intro c hc
      simpa [isShown] using (quotable_of_singleQuoted style).ascii c hc
    simp [quote, all_writeRuns shown]
  | doubleQuoted =>
    have quote : isShown '"' = true := by decide
    have nothing : ([] : List Char).all isShown = true := rfl
    simp [quote, all_writeEscaped nothing]

/-! ## Documents -/

/-- Whether a document is written in shown characters, as a value and as an item. -/
structure Shown (d : Document) : Prop where
  value : ∀ indent column, (writeValue indent column d).all isShown = true
  item : ∀ indent, (writeItem indent d).all isShown = true

theorem all_writeItems {items : List Document} (parts : ∀ d ∈ items, Shown d) (indent : Nat) :
    (writeItems indent items).all isShown = true := by
  have dash : isShown '-' = true := by decide
  match items with
  | [] => rfl
  | [item] =>
    have first := (parts item List.mem_cons_self).item indent
    simp [writeItems, dash, first]
  | item :: next :: others =>
    have first := (parts item List.mem_cons_self).item indent
    have later : (writeItems indent (next :: others)).all isShown = true :=
      all_writeItems (fun d hd => parts d (List.mem_cons_of_mem _ hd)) indent
    simp [writeItems, dash, first, later, all_newLine]

theorem all_writeEntries {entries : List (Document × Document)}
    (named : ∀ e ∈ entries, ∃ s, e.1 = .text s) (values : ∀ e ∈ entries, Shown e.2)
    (indent : Nat) : (writeEntries indent entries).all isShown = true := by
  have colon : isShown ':' = true := by decide
  match entries with
  | [] => rfl
  | [(key, value)] =>
    obtain ⟨s, rfl⟩ := named _ List.mem_cons_self
    have first := (values _ List.mem_cons_self).value indent
    simp [writeEntries, writeScalar, colon, all_writeText, first]
  | (key, value) :: next :: others =>
    obtain ⟨s, rfl⟩ := named _ List.mem_cons_self
    have first := (values _ List.mem_cons_self).value indent
    have later := all_writeEntries (fun e he => named e (List.mem_cons_of_mem _ he))
      (fun e he => values e (List.mem_cons_of_mem _ he)) indent
    simp [writeEntries, writeScalar, colon, all_writeText, first, later, all_newLine]

theorem shown_of_textual {isKey : String → Prop} {n : Nat} {d : Document}
    (h : d.Textual isKey n) : Shown d := by
  have space : isShown ' ' = true := by decide
  have brackets : " []".toList.all isShown = true := by decide
  have braces : [' ', '\x7b', '\x7d'].all isShown = true := by decide
  induction h with
  | text n s =>
    exact ⟨fun indent column => by simp [writeValue, writeScalar, space, all_writeText],
      fun indent => by simp [writeItem, writeScalar, space, all_writeText]⟩
  | @list _ items _ ih =>
    cases items with
    | nil => exact ⟨fun _ _ => brackets, fun _ => brackets⟩
    | cons item others =>
      exact ⟨fun indent column => by simp [writeValue, all_newLine, all_writeItems ih],
        fun indent => by simp [writeItem, space, all_writeItems ih]⟩
  | @mapping _ entries named _ _ ih =>
    have texts : ∀ e ∈ entries, ∃ s, e.1 = .text s := fun e he =>
      (named e he).imp fun s h => h.1
    cases entries with
    | nil => exact ⟨fun _ _ => braces, fun _ => braces⟩
    | cons entry others =>
      exact ⟨fun indent column => by simp [writeValue, all_newLine, all_writeEntries texts ih],
        fun indent => by simp [writeItem, space, all_writeEntries texts ih]⟩

end Yaml
end PerfFormula
