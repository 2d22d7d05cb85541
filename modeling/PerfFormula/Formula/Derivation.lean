import PerfFormula.Formula.Grammar
import PerfFormula.Proofs.Levels

/-!
# Derivations of what is parsed

Whatever the parser reads from the front of some tokens is derived by the grammar: it takes a first
part of the tokens, and the tree that it builds is the tree of that part.

Main statements:

* `Parsing.expression_sound` — an expression that is read within some levels is derived within them.
* `Parsing.isFormula_of_formula` — tokens that parse are a formula with the tree that was built.
-/

namespace PerfFormula
namespace Parsing

/-- The lexemes of some tokens. -/
def lexemes (ts : List Token) : List Lexeme := ts.map (·.lexeme)

@[simp] theorem lexemes_nil : lexemes [] = [] := rfl

@[simp] theorem lexemes_cons (t : Token) (ts : List Token) :
    lexemes (t :: ts) = t.lexeme :: lexemes ts := rfl

@[simp] theorem lexemes_append (ts us : List Token) :
    lexemes (ts ++ us) = lexemes ts ++ lexemes us := List.map_append

/-- What was read takes a first part of the tokens, whose lexemes and value are so related. -/
def Reading.Takes {α : Type} {ts : List Token} (r : Reading α ts)
    (related : List Lexeme → α → Prop) : Prop :=
  ∃ used, ts = used ++ r.rest ∧ related (lexemes used) r.value

/-- Whatever a parser reads are the lexemes of a construct. -/
def Sound (p : Parser Formula) (levels : Nat) (k : Construct) : Prop :=
  ∀ ts r, p ts = .ok r → r.Takes (Derives levels k)

/-! ## Chains -/

theorem chain_takes {operand : Parser Formula} {levels rank : Nat}
    (sound : Sound operand levels (.chain rank)) (ts : List Token) (left : Reading Formula ts)
    (taken : left.Takes (Derives levels (.chain (rank + 1)))) (r : Reading Formula ts)
    (h : chain operand (rank + 1) ts left = .ok r) :
    r.Takes (Derives levels (.chain (rank + 1))) := by
  induction hn : left.rest.length using Nat.strongRecOn generalizing left with
  | ind n ih =>
    subst hn
    cases hop : operator? (rank + 1) left.rest with
    | none =>
      rw [chain_stops hop] at h
      cases h
      exact taken
    | some found =>
      obtain ⟨op, afterOp⟩ := found
      rw [chain_step hop] at h
      cases hright : operand afterOp with
      | error f =>
        rw [hright] at h
        cases h
      | ok right =>
        rw [hright] at h
        refine ih _ (Nat.lt_trans right.shorter (operator?_shorter hop)) _ ?_ h rfl
        obtain ⟨usedLeft, leftEq, leftDerives⟩ := taken
        obtain ⟨usedRight, rightEq, rightDerives⟩ := sound _ _ hright
        obtain ⟨t, restEq, ht, hrank⟩ := operator?_eq_some hop
        refine ⟨usedLeft ++ t :: usedRight, ?_, ?_⟩
        · exact leftEq.trans (by simp [Reading.join, restEq, rightEq])
        · simpa [ht] using .binary leftDerives hrank rightDerives

theorem level_sound {operand : Parser Formula} {levels : Nat}
    (sound : Sound operand levels .signed) (rank : Nat) :
    Sound (level operand rank) levels (.chain rank) := by
  induction rank with
  | zero =>
    intro ts r h
    obtain ⟨used, hts, hd⟩ := sound ts r h
    exact ⟨used, hts, .unchained hd⟩
  | succ rank ih =>
    intro ts r h
    rw [level_succ] at h
    cases hfirst : level operand rank ts with
    | error e => simp [hfirst, Except.bind] at h
    | ok first =>
      simp only [hfirst, Except.bind] at h
      obtain ⟨used, hts, hd⟩ := ih ts first hfirst
      exact chain_takes ih ts first ⟨used, hts, .tighter hd⟩ r h

/-! ## Signs, operands and calls -/

theorem signed_sound {operand : Parser Formula} {levels : Nat}
    (sound : Sound operand levels .operand) : Sound (signed operand) levels .signed := by
  intro ts r h
  fun_induction signed operand ts with
  | case1 position raw ts f hf => cases h
  | case2 position raw ts inner hinner ih =>
    cases h
    obtain ⟨used, hts, hd⟩ := ih inner hinner
    exact ⟨⟨.operator .sub, position, raw⟩ :: used, congrArg _ hts, .negate hd⟩
  | case3 ts _ =>
    obtain ⟨used, hts, hd⟩ := sound ts r h
    exact ⟨used, hts, .unsigned hd⟩

theorem closed_takes {α : Type} {ts : List Token} {r c : Reading α ts}
    {related : List Lexeme → α → Prop} (h : closed r = .ok c) (taken : r.Takes related) :
    c.Takes fun ls x => ∃ inner, ls = inner ++ [.closing] ∧ related inner x := by
  obtain ⟨used, hts, hrel⟩ := taken
  unfold closed at h
  split at h
  · next position raw rest hrest =>
    cases h
    exact ⟨used ++ [⟨.closing, position, raw⟩], hts.trans (by simp [hrest]), lexemes used,
      by simp, hrel⟩
  · cases h

/-- The lexemes of some expressions, separated by commas. -/
inductive DerivesEach (levels : Nat) : List Lexeme → List Formula → Prop where
  | one {ls x} : Derives levels .expression ls x → DerivesEach levels ls [x]
  | more {ls as x xs} : Derives levels .expression ls x → DerivesEach levels as xs →
      DerivesEach levels (ls ++ .comma :: as) (x :: xs)

theorem DerivesEach.pair {levels : Nat} {ls : List Lexeme} {x y : Formula}
    (h : DerivesEach levels ls [x, y]) :
    ∃ as bs, ls = as ++ .comma :: bs ∧ Derives levels .expression as x ∧
      Derives levels .expression bs y := by
  cases h with
  | more hx hy =>
    cases hy with
    | one hy => exact ⟨_, _, rfl, hx, hy⟩
    | more _ hz => cases hz

theorem arguments_takes {argument : Parser Formula} {levels : Nat}
    (sound : Sound argument levels .expression) (earlier : List Formula) (ts : List Token)
    (r : Reading (List Formula) ts) (h : arguments argument earlier ts = .ok r) :
    r.Takes fun ls all => ∃ xs, all = earlier.reverse ++ xs ∧ DerivesEach levels ls xs := by
  fun_induction arguments argument earlier ts with
  | case1 => cases h
  | case2 => simp_all
  | case3 earlier ts first hfirst position raw more hrest fewer all hall ih =>
    obtain ⟨used, hts, hd⟩ := sound ts first hfirst
    obtain ⟨usedMore, hmore, xs, hxs, hds⟩ := ih all hall
    cases h
    refine ⟨used ++ ⟨.comma, position, raw⟩ :: usedMore, ?_, first.value :: xs, ?_, ?_⟩
    · exact hts.trans (by simp [hrest, Reading.after, ← hmore])
    · simp [Reading.after, hxs]
    · simpa using .more hd hds
  | case4 earlier ts first hfirst hno =>
    cases h
    obtain ⟨used, hts, hd⟩ := sound ts first hfirst
    exact ⟨used, hts, [first.value], by simp, .one hd⟩

theorem call_takes {argument : Parser Formula} {levels : Nat}
    (sound : Sound argument levels .expression) (g : Builtin) (whole ts : List Token)
    (r : Reading Formula ts) (h : call argument g whole ts = .ok r) :
    r.Takes fun ls x => Derives (levels + 1) .operand (.function g :: ls) x := by
  rcases ts with _ | ⟨⟨lexeme, position, raw⟩, inside⟩
  · cases h
  cases lexeme with
  | opening =>
    simp only [call, bind, Except.bind] at h
    split at h
    · cases h
    · next listed hlisted =>
      split at h
      · cases h
      · next args hargs =>
        obtain ⟨used, hts, ls, hls, xs, hxs, hds⟩ :=
          closed_takes hargs (arguments_takes sound [] inside listed hlisted)
        split at h
        · next a b hab =>
          cases h
          obtain rfl : [a, b] = xs := by simpa [hab] using hxs
          obtain ⟨as, bs, rfl, hda, hdb⟩ := hds.pair
          refine ⟨⟨.opening, position, raw⟩ :: used, congrArg _ hts, ?_⟩
          simpa [hls] using Derives.call (g := g) hda hdb
        · cases h
  | _ => cases h

/-! ## Operands and expressions -/

theorem operand_sound {nested : Parser Formula} {levels : Nat}
    (sound : Sound nested levels .expression) : Sound (operand nested) (levels + 1) .operand := by
  intro ts r h
  rcases ts with _ | ⟨⟨lexeme, position, raw⟩, rest⟩
  · cases h
  cases lexeme with
  | number x => cases h; exact ⟨[⟨.number x, position, raw⟩], rfl, .number⟩
  | name n =>
    simp only [operand] at h
    split at h
    · cases h
    · cases h; exact ⟨[⟨.name n, position, raw⟩], rfl, .name⟩
  | literal n =>
    simp only [operand] at h
    split at h
    · next l hl =>
      cases h
      obtain rfl := HostLiteral.name_of_ofName? hl
      exact ⟨[⟨.literal l.name, position, raw⟩], rfl, .host⟩
    · cases h
  | opening =>
    simp only [operand, bind, Except.bind] at h
    split at h
    · cases h
    · next inner hinner =>
      split at h
      · cases h
      · next whole hwhole =>
        cases h
        obtain ⟨used, hts, ls, hls, hd⟩ := closed_takes hwhole (sound rest inner hinner)
        refine ⟨⟨.opening, position, raw⟩ :: used, congrArg _ hts, ?_⟩
        simpa [hls, Reading.after] using Derives.group hd
  | function g =>
    simp only [operand, bind, Except.bind] at h
    split at h
    · cases h
    · next whole hwhole =>
      cases h
      obtain ⟨used, hts, hd⟩ := call_takes sound g _ rest whole hwhole
      exact ⟨⟨.function g, position, raw⟩ :: used, congrArg _ hts, hd⟩
  | _ => cases h

/-- An expression that is read within some levels is derived within them. -/
theorem expression_sound (levels : Nat) : Sound (expression levels) levels .expression := by
  induction levels with
  | zero => intro ts r h; cases h
  | succ levels ih =>
    have simple := level_sound (signed_sound (operand_sound ih)) Operator.loosest
    intro ts r h
    simp only [expression, binary_eq_level, bind, Except.bind] at h
    split at h
    · cases h
    · next first hfirst =>
      obtain ⟨used, hts, hd⟩ := simple ts first hfirst
      split at h
      · next position raw afterIf hif =>
        split at h
        · cases h
        · next condition hcondition =>
          obtain ⟨usedC, htsC, hdC⟩ := simple afterIf condition hcondition
          split at h
          · next position' raw' afterElse helse =>
            split at h
            · cases h
            · next last hlast =>
              obtain ⟨usedF, htsF, hdF⟩ := ih afterElse last hlast
              cases h
              refine ⟨used ++ ⟨.ifWord, position, raw⟩ :: usedC ++ ⟨.elseWord, position', raw'⟩ ::
                usedF, ?_, ?_⟩
              · exact hts.trans (by simp [hif, htsC, helse, ← htsF])
              · simpa using Derives.choice hd hdC hdF
          · cases h
      · cases h
        exact ⟨used, hts, .simple hd⟩

/-- Tokens that parse are a formula with the tree that was built. -/
theorem isFormula_of_formula {ts : List Token} {x : Formula} (h : formula ts = .ok x) :
    IsFormula (lexemes ts) x := by
  unfold formula at h
  split at h
  · cases h
  · next r hr =>
    obtain ⟨used, hts, hd⟩ := expression_sound depthLimit ts r hr
    split at h
    · next hrest =>
      cases h
      have same : ts = used := by simpa [hrest] using hts
      rw [IsFormula, congrArg lexemes same]
      exact hd
    · cases h

end Parsing
end PerfFormula
