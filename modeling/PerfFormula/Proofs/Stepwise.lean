import PerfFormula.Evaluation.Stepwise
import PerfFormula.Proofs.Memory

/-!
# Every evaluation ends

An evaluation that takes one step after the other comes to an end, whether or not references form a
cycle, and the end is what the evaluation by recursion comes to. On the way no reference is being
resolved twice: before it is resolved again, the cycle is noticed. So no more references are being
resolved at a time than there are, and as each of them puts one more formula on top of those that
wait, the number of evaluations inside each other is bounded too, by a number that can be computed
from the context and the formula beforehand.

Main statements:

* `Stepwise.steps_of_le` — what has ended stays as it is.
* `Stepwise.Arrives.bind` — steps and recursion agree on a whole if they agree on its parts.
* `Context.leads_evaluation` — evaluation by steps ends as evaluation by recursion does.
* `Evaluation.advances_of_step` — which kinds of steps there are.
* `Evaluation.Resolves.advances`, `Evaluation.Fits.advances` — what every step keeps: the references
  that are being resolved are different, and there is room for all that may still come.
-/

namespace PerfFormula

/-! ## Computations by steps -/

namespace Stepwise

variable {σ ω : Type} {next : σ → Stepwise σ ω}

/-- Some number of steps leads there. -/
def Leads (next : σ → Stepwise σ ω) (s : σ) (p : Stepwise σ ω) : Prop := ∃ n, steps next n s = p

theorem Leads.refl (s : σ) : Leads next s (goesOn s) := ⟨0, rfl⟩

theorem Leads.step {s s' : σ} {p : Stepwise σ ω} (first : next s = goesOn s')
    (rest : Leads next s' p) : Leads next s p := by
  obtain ⟨n, h⟩ := rest
  exact ⟨n + 1, by rw [steps, first]; exact h⟩

theorem leads_of_ended {s : σ} {o : ω} (last : next s = ended o) : Leads next s (ended o) :=
  ⟨1, by rw [steps, last]⟩

/-- What goes on after some steps went on after the first of them. -/
theorem goesOn_of_steps {s s' : σ} {n : Nat} (h : steps next (n + 1) s = goesOn s') :
    ∃ s₁, next s = goesOn s₁ ∧ steps next n s₁ = goesOn s' := by
  rw [steps] at h
  cases here : next s with
  | goesOn s₁ =>
    rw [here] at h
    exact ⟨s₁, rfl, h⟩
  | ended o =>
    rw [here] at h
    cases h

theorem Leads.trans {s s' : σ} {p : Stepwise σ ω} (first : Leads next s (goesOn s'))
    (rest : Leads next s' p) : Leads next s p := by
  obtain ⟨n, h⟩ := first
  induction n generalizing s with
  | zero =>
    cases h
    exact rest
  | succ n ih =>
    obtain ⟨s₁, here, later⟩ := goesOn_of_steps h
    exact .step here (ih later)

/-- A computation that has ended has ended in the same way later. -/
theorem steps_of_le {s : σ} {o : ω} {n m : Nat} (h : steps next n s = ended o) (le : n ≤ m) :
    steps next m s = ended o := by
  induction n generalizing s m with
  | zero => cases h
  | succ n ih =>
    -- there is a first step in both counts
    obtain ⟨m, rfl⟩ : ∃ k, m = k + 1 := ⟨m - 1, by omega⟩
    rw [steps] at h ⊢
    cases here : next s with
    | goesOn s' =>
      rw [here] at h
      exact ih h (by omega)
    | ended o' =>
      rw [here] at h
      exact h

/-- What every step keeps holds at every moment. -/
theorem steps_keep {keeps : σ → Prop} {s s' : σ} {n : Nat}
    (each : ∀ s s', keeps s → next s = goesOn s' → keeps s') (first : keeps s)
    (h : steps next n s = goesOn s') : keeps s' := by
  induction n generalizing s with
  | zero =>
    cases h
    exact first
  | succ n ih =>
    obtain ⟨s₁, here, later⟩ := goesOn_of_steps h
    exact ih (each s s₁ first here) later

/-! ## Steps and recursion -/

variable {τ ε α β : Type} {next : σ → Stepwise σ (Except ε β × τ)}

/-- A computation by steps comes to what a computation by recursion comes to: it ends with the error
of that one, or it goes on with the value. -/
def Arrives (next : σ → Stepwise σ (Except ε β × τ)) (goOn : α → τ → σ) (s : σ) :
    Except ε α × τ → Prop
  | (.ok x, t) => Leads next s (goesOn (goOn x t))
  | (.error e, t) => Leads next s (ended (.error e, t))

variable {goOn : α → τ → σ} {s s' : σ}

theorem Arrives.step {result : Except ε α × τ} (first : next s = goesOn s')
    (rest : Arrives next goOn s' result) : Arrives next goOn s result := by
  rcases result with ⟨e | x, t⟩
  · exact Leads.step first rest
  · exact Leads.step first rest

theorem arrives_of_goesOn {x : α} {t : τ} (last : next s = goesOn (goOn x t)) :
    Arrives next goOn s (.ok x, t) :=
  Leads.step last (.refl _)

/-- A computation may go on from the value in another way; an error ends it all the same. -/
theorem Arrives.through {γ : Type} {goOn' : γ → τ → σ} {result : Except ε α × τ}
    {last : Except ε γ × τ} (first : Arrives next goOn s result)
    (value : ∀ x t, result = (.ok x, t) → Arrives next goOn' (goOn x t) last)
    (error : ∀ e t, result = (.error e, t) → last = (.error e, t)) :
    Arrives next goOn' s last := by
  rcases result with ⟨e | x, t⟩
  · rw [error e t rfl]
    exact first
  · have second := value x t rfl
    rcases last with ⟨e | y, t'⟩
    · exact Leads.trans first second
    · exact Leads.trans first second

/-- What is done first comes first, and then the rest goes on. -/
theorem Arrives.bind {γ : Type} {goOn' : γ → τ → σ} {part : ExceptT ε (StateM τ) α}
    {rest : α → ExceptT ε (StateM τ) γ} {t : τ} (first : Arrives next goOn s (after part t))
    (second : ∀ x t', Arrives next goOn' (goOn x t') (after (rest x) t')) :
    Arrives next goOn' s (after (part >>= rest) t) := by
  refine first.through (fun x t' same => ?_) fun e t' same => ?_
  · rw [after_bind, same]
    exact second x t'
  · rw [after_bind, same]

/-- Where nothing else is to be done, the whole computation ends. -/
theorem Arrives.leads {goOn : β → τ → σ} {result : Except ε β × τ}
    (first : Arrives next goOn s result)
    (last : ∀ x t, next (goOn x t) = ended (.ok x, t)) : Leads next s (ended result) := by
  rcases result with ⟨e | x, t⟩
  · exact first
  · exact Leads.trans first (leads_of_ended (last x t))

end Stepwise

namespace Context

open Evaluation Stepwise

variable {c : Context} {outer : List Waiting}

/-! ## Evaluations -/

/-- A value is handed on to what waits for it. -/
def handing (outer : List Waiting) (x : Float) (r : Run) : Moment := ⟨.handOn x, outer, r⟩

/-- A branch hands its value on unchanged. -/
theorem arrives_branch {s : Moment} {result : Except FormulaError Float × Run}
    (h : Arrives c.step (handing (.branch :: outer)) s result) :
    Arrives c.step (handing outer) s result := by
  refine h.through (fun x r same => ?_) fun e r same => same
  rw [same]
  exact arrives_of_goesOn rfl

/-- A reference hands on the value of its formula, and remembers it. -/
theorem arrives_reference {s : Moment} {name : String} {result : Except FormulaError Float × Run}
    (h : Arrives c.step (handing (.reference name :: outer)) s result) :
    Arrives c.step (handing outer) s (remembering name result) := by
  refine h.through (fun x r same => ?_) fun e r same => by rw [same]; rfl
  rw [same]
  exact arrives_of_goesOn rfl

/-- If evaluation by steps does so for names, it comes for formulas to what recursion comes to. -/
theorem arrives_run {chain : List String}
    (names : ∀ n outer r, resolvingIn outer = chain →
      Arrives c.step (handing outer) ⟨.evaluate (.name n), outer, r⟩
        (after (c.resolve chain n) r))
    (f : Formula) (outer : List Waiting) (r : Run) (same : resolvingIn outer = chain) :
    Arrives c.step (handing outer) ⟨.evaluate f, outer, r⟩
      (after (f.run c.answers (c.resolve chain)) r) := by
  induction f generalizing outer r with
  | number x => exact arrives_of_goesOn rfl
  | name n => exact names n outer r same
  | host l => exact arrives_of_goesOn rfl
  | binary op l r' ihl ihr =>
    refine .step rfl (Arrives.bind (ihl (.left op r' :: outer) r same) fun x r₁ => ?_)
    refine .step rfl (Arrives.bind (ihr (.right op x :: outer) r₁ same) fun y r₂ => ?_)
    -- the operator is applied in the step that hands on the right operand
    have last : c.step (handing (.right op x :: outer) y r₂) =
        stepOut r₂ y (.right op x :: outer) := rfl
    rw [stepOut] at last
    cases applied : op.apply x y with
    | ok z =>
      rw [applied] at last
      exact arrives_of_goesOn last
    | error e =>
      rw [applied] at last
      exact leads_of_ended last
  | negate f ih =>
    refine .step rfl (Arrives.bind (ih (.operand :: outer) r same) fun x r₁ => ?_)
    exact arrives_of_goesOn rfl
  | choice condition t f ihc iht ihf =>
    refine .step rfl (Arrives.bind (ihc (.condition t f :: outer) r same) fun x r₁ => ?_)
    -- the value of the condition selects the branch that is evaluated in its place
    refine .step rfl (arrives_branch ?_)
    cases isTrue x with
    | true => exact iht (.branch :: outer) r₁ same
    | false => exact ihf (.branch :: outer) r₁ same
  | call g a b iha ihb =>
    refine .step rfl (Arrives.bind (iha (.first g b :: outer) r same) fun x r₁ => ?_)
    refine .step rfl (Arrives.bind (ihb (.second g x :: outer) r₁ same) fun y r₂ => ?_)
    exact arrives_of_goesOn rfl

/-- Looking up a name by steps comes to what looking it up by recursion comes to. -/
theorem arrives_resolve (c : Context) (chain : List String) (name : String)
    (outer : List Waiting) (r : Run) (same : resolvingIn outer = chain) :
    Arrives c.step (handing outer) ⟨.evaluate (.name name), outer, r⟩
      (after (c.resolve chain name) r) := by
  induction chain, name using c.follow_induction generalizing outer r with
  | each chain name ih =>
    have here : c.step ⟨.evaluate (.name name), outer, r⟩ = c.stepName name outer r := rfl
    subst same
    unfold stepName at here
    rw [after_resolve]
    cases found : NameMap.lookupIn name r.resolved with
    | some x =>
      simp only [found] at here
      exact arrives_of_goesOn here
    | none =>
      simp only [found] at here
      cases known : c.datum name with
      | error e =>
        rw [known] at here
        exact leads_of_ended here
      | ok d =>
        cases d with
        | pending =>
          rw [known] at here
          exact leads_of_ended here
        | value x =>
          rw [known] at here
          exact arrives_of_goesOn here
        | reference source =>
          simp only [known] at here
          by_cases onChain : name ∈ resolvingIn outer
          · rw [if_pos onChain] at here
            simp only [if_pos onChain]
            exact leads_of_ended here
          · rw [if_neg onChain] at here
            simp only [if_neg onChain]
            cases parses : Formula.parse source c.runtime with
            | error e =>
              rw [parses] at here
              exact leads_of_ended here
            | ok f =>
              rw [parses] at here
              -- behind this reference fewer of them are left to follow
              have names := ih source known onChain
              exact .step here (arrives_reference
                (arrives_run names f (.reference name :: outer) r rfl))

/-- Evaluation by steps ends as evaluation by recursion does. -/
theorem leads_evaluation (c : Context) (f : Formula) :
    Leads c.step (.start f) (ended (c.runFormula f)) := by
  have names := arrives_resolve c []
  exact (arrives_run names f [] .start rfl).leads fun x r => rfl

end Context

/-! ## What a step does -/

namespace Evaluation

/-- What waits does not resolve a reference, but evaluates a part of a formula. -/
def Waiting.IsPart (w : Waiting) : Prop :=
  ∀ outer, resolvingIn (w :: outer) = resolvingIn outer

/-- The height of what may still have to be evaluated once the awaited value is there. -/
def Waiting.pending : Waiting → Nat
  | left _ r => r.height
  | condition t f => max t.height f.height
  | first _ b => b.height
  | right _ _ | operand | branch | second _ _ | reference _ => 0

/-- The kinds of steps that do not end an evaluation. -/
inductive Advances (c : Context) : Moment → Moment → Prop where
  /-- The value of a formula is known at once. -/
  | value {f : Formula} {x : Float} {outer : List Waiting} {run run' : Run} :
      run'.names = run.names → Advances c ⟨.evaluate f, outer, run⟩ ⟨.handOn x, outer, run'⟩
  /-- A part of a formula is evaluated first. -/
  | part {f part : Formula} {w : Waiting} {outer : List Waiting} {run : Run} :
      w.IsPart → part.height < f.height → w.pending < f.height →
      Advances c ⟨.evaluate f, outer, run⟩ ⟨.evaluate part, w :: outer, run⟩
  /-- The formula that a name refers to is evaluated. -/
  | follow {name source : String} {f : Formula} {outer : List Waiting} {run : Run} :
      c.datum name = .ok (.reference source) → name ∉ run.names → name ∉ resolvingIn outer →
      Formula.parse source c.runtime = .ok f →
      Advances c ⟨.evaluate (.name name), outer, run⟩ ⟨.evaluate f, .reference name :: outer, run⟩
  /-- The next part of a formula is evaluated. -/
  | next {x : Float} {part : Formula} {w w' : Waiting} {outer : List Waiting} {run : Run} :
      w.IsPart → w'.IsPart → part.height ≤ w.pending → w'.pending = 0 →
      Advances c ⟨.handOn x, w :: outer, run⟩ ⟨.evaluate part, w' :: outer, run⟩
  /-- A formula has come to its value. -/
  | back {x y : Float} {w : Waiting} {outer : List Waiting} {run : Run} :
      w.IsPart → Advances c ⟨.handOn x, w :: outer, run⟩ ⟨.handOn y, outer, run⟩
  /-- A reference is resolved. -/
  | resolved {x : Float} {name : String} {outer : List Waiting} {run : Run} :
      Advances c ⟨.handOn x, .reference name :: outer, run⟩
        ⟨.handOn x, outer, run.remember name x⟩

variable {c : Context}

theorem advances_stepName {name : String} {outer : List Waiting} {run : Run} {s : Moment}
    (h : c.stepName name outer run = Stepwise.goesOn s) :
    Advances c ⟨.evaluate (.name name), outer, run⟩ s := by
  unfold Context.stepName at h
  split at h
  · cases h
    exact .value rfl
  · next absent =>
    split at h
    · cases h
    · cases h
    · cases h
      exact .value rfl
    · next source reference =>
      split at h
      · cases h
      · next fresh =>
        split at h
        · cases h
        · next f parses =>
          cases h
          exact .follow reference (NameMap.lookupIn_eq_none_iff.1 absent) fresh parses

theorem advances_stepOut {x : Float} {w : Waiting} {outer : List Waiting} {run : Run} {s : Moment}
    (h : Context.stepOut run x (w :: outer) = Stepwise.goesOn s) :
    Advances c ⟨.handOn x, w :: outer, run⟩ s := by
  cases w with
  | left op r | first g b =>
    cases h
    exact .next (fun _ => rfl) (fun _ => rfl) (Nat.le_refl _) rfl
  | right op y =>
    simp only [Context.stepOut] at h
    split at h
    · cases h
      exact .back fun _ => rfl
    · cases h
  | condition t f =>
    cases h
    refine .next (fun _ => rfl) (fun _ => rfl) ?_ rfl
    show _ ≤ max t.height f.height
    split <;> omega
  | operand | branch | second =>
    cases h
    exact .back fun _ => rfl
  | reference name =>
    cases h
    exact .resolved

/-- Every step that does not end the evaluation is of one of the kinds. -/
theorem advances_of_step {s s' : Moment} (h : c.step s = Stepwise.goesOn s') :
    Advances c s s' := by
  obtain ⟨task, outer, run⟩ := s
  cases task with
  | evaluate f =>
    cases f with
    | number | host =>
      cases h
      exact .value rfl
    | name n => exact advances_stepName h
    | binary | choice | call =>
      cases h
      refine .part (fun _ => rfl) ?_ ?_ <;> simp only [Formula.height, Waiting.pending] <;> omega
    | negate =>
      cases h
      refine .part (fun _ => rfl) ?_ ?_ <;> simp [Formula.height, Waiting.pending]
  | handOn x =>
    cases outer with
    | nil => cases h
    | cons w outer => exact advances_stepOut h

/-! ## What holds at every moment -/

/-- The references that are being resolved are different, each of them is one in the context, and
none of them has been resolved before. -/
structure Resolves (c : Context) (s : Moment) : Prop where
  distinct : s.resolving.Nodup
  references : ∀ n ∈ s.resolving, ∃ source, c.datum n = .ok (.reference source)
  apart : Run.Apart s.resolving s.run

theorem resolves_start (c : Context) (f : Formula) : Resolves c (.start f) :=
  ⟨List.nodup_nil, fun n h => (by cases h), fun n h => (by cases h)⟩

/-- Whether the references are resolved in order depends only on them and on what is remembered. -/
theorem Resolves.congr {s s' : Moment} (h : Resolves c s) (same : s'.resolving = s.resolving)
    (remembered : s'.run.names = s.run.names) : Resolves c s' := by
  refine ⟨same ▸ h.distinct, same ▸ h.references, fun n resolving => ?_⟩
  rw [remembered]
  exact h.apart n (same ▸ resolving)

theorem Resolves.advances {s s' : Moment} (h : Resolves c s) (step : Advances c s s') :
    Resolves c s' := by
  cases step with
  | value remembered => exact h.congr rfl remembered
  -- three kinds of steps exchange what waits, but no reference among it
  | part isPart => exact h.congr (isPart _) rfl
  | next isPart isPart' => exact h.congr ((isPart' _).trans (isPart _).symm) rfl
  | back isPart => exact h.congr (isPart _).symm rfl
  | @follow name source f outer run reference unknown fresh parses =>
    refine ⟨?_, ?_, Run.apart_append h.apart unknown⟩
    -- the cycle would have been noticed if the name were being resolved already
    · refine List.nodup_append.2 ⟨h.distinct, by simp, ?_⟩
      rintro n hn m hm rfl
      exact fresh (List.mem_singleton.1 hm ▸ hn)
    · intro n hn
      rcases List.mem_append.1 hn with hn | hn
      · exact h.references n hn
      · rw [List.mem_singleton.1 hn]
        exact ⟨source, reference⟩
  | @resolved x name outer run =>
    have split := List.nodup_append.1 h.distinct
    refine ⟨split.1, fun n hn => h.references n (List.mem_append_left _ hn), fun n hn => ?_⟩
    -- the name that is remembered now was the innermost one
    have other : n ≠ name := split.2.2 n hn name (by simp)
    show n ∉ name :: run.names
    rw [List.mem_cons, not_or]
    exact ⟨other, h.apart n (List.mem_append_left _ hn)⟩

/-- Along a whole evaluation the references are resolved in order. -/
theorem resolves_of_steps {f : Formula} {n : Nat} {s : Moment}
    (h : Stepwise.steps c.step n (.start f) = .goesOn s) : Resolves c s := by
  refine Stepwise.steps_keep (fun s s' keeps step => ?_) (resolves_start c f) h
  exact keeps.advances (advances_of_step step)

/-- There is room for what may come back to each evaluation that waits, and for all references that
may still be followed then. -/
def Room (c : Context) (bound : Nat) : List Waiting → Prop
  | [] => True
  | w :: outer =>
    outer.length + 1 + w.pending + (c.unresolved (resolvingIn outer)).length * c.tallest ≤ bound ∧
      Room c bound outer

/-- There is room for everything that is being evaluated. -/
structure Fits (c : Context) (bound : Nat) (s : Moment) : Prop where
  waiting : Room c bound s.waiting
  task : ∀ f, s.task = .evaluate f → s.waiting.length + f.height +
    (c.unresolved s.resolving).length * c.tallest ≤ bound

theorem height_pos (f : Formula) : 0 < f.height := by
  cases f <;> simp [Formula.height]

theorem le_foldr_max {x : Nat} {xs : List Nat} (mem : x ∈ xs) : x ≤ xs.foldr max 0 := by
  induction xs with
  | nil => cases mem
  | cons y rest ih =>
    rw [List.foldr_cons]
    rcases List.mem_cons.1 mem with rfl | mem
    · exact Nat.le_max_left ..
    · exact Nat.le_trans (ih mem) (Nat.le_max_right ..)

theorem height_le_tallest {name source : String} {f : Formula}
    (reference : c.datum name = .ok (.reference source))
    (parses : Formula.parse source c.runtime = .ok f) : f.height ≤ c.tallest := by
  have height : c.heightOf name = f.height := by
    rw [Context.heightOf, reference]
    simp only [parses]
  rw [← height]
  exact le_foldr_max (List.mem_map_of_mem (Context.mem_references reference))

theorem fits_start (c : Context) (f : Formula) : Fits c (c.deepest f) (.start f) := by
  refine ⟨trivial, fun g task => ?_⟩
  cases task
  have all : c.unresolved [] = c.references := by simp [Context.unresolved]
  show [].length + f.height + (c.unresolved []).length * c.tallest ≤ c.deepest f
  rw [all, List.length_nil, Nat.zero_add]
  exact Nat.le_refl _

theorem Fits.advances {bound : Nat} {s s' : Moment} (h : Fits c bound s)
    (step : Advances c s s') : Fits c bound s' := by
  obtain ⟨waiting, task⟩ := h
  cases step with
  | value => exact ⟨waiting, fun f task => (by cases task)⟩
  | back => exact ⟨waiting.2, fun f task => (by cases task)⟩
  | resolved => exact ⟨waiting.2, fun f task => (by cases task)⟩
  | @part f part w outer run isPart small pending =>
    -- both parts, the one that is evaluated and the one that waits, are lower than the formula
    have room := task f rfl
    simp only [Moment.resolving] at room
    refine ⟨⟨by omega, waiting⟩, fun g task => ?_⟩
    cases task
    simp only [Moment.resolving, isPart outer, List.length_cons]
    omega
  | @next x part w w' outer run isPart isPart' small nothing =>
    have room := waiting.1
    refine ⟨⟨by omega, waiting.2⟩, fun g task => ?_⟩
    cases task
    simp only [Moment.resolving, isPart' outer, List.length_cons]
    omega
  | @follow name source f outer run reference unknown fresh parses =>
    have room := task (.name name) rfl
    simp only [Moment.resolving, Formula.height] at room
    refine ⟨⟨by simpa [Waiting.pending] using room, waiting⟩, fun g task => ?_⟩
    cases task
    -- one reference fewer is left, and its formula is not higher than the highest
    have fewer := Context.unresolved_append_lt reference fresh
    have small := height_le_tallest reference parses
    have paid : ((c.unresolved (resolvingIn outer ++ [name])).length + 1) * c.tallest ≤
        (c.unresolved (resolvingIn outer)).length * c.tallest := Nat.mul_le_mul_right _ fewer
    rw [Nat.add_mul, Nat.one_mul] at paid
    simp only [Moment.resolving, resolvingIn, List.length_cons]
    omega

/-- Along a whole evaluation there is room for everything. -/
theorem fits_of_steps {f : Formula} {n : Nat} {s : Moment}
    (h : Stepwise.steps c.step n (.start f) = .goesOn s) : Fits c (c.deepest f) s := by
  refine Stepwise.steps_keep (fun s s' keeps step => ?_) (fits_start c f) h
  exact keeps.advances (advances_of_step step)

/-- What fits is not deeper than the bound. -/
theorem Fits.depth_le {bound : Nat} {s : Moment} (h : Fits c bound s) : s.depth ≤ bound := by
  obtain ⟨task, outer, run⟩ := s
  cases task with
  | evaluate f =>
    have room := h.task f rfl
    have := height_pos f
    simp only at room
    show outer.length + 1 ≤ bound
    omega
  | handOn x =>
    cases outer with
    | nil => exact Nat.zero_le bound
    | cons w outer =>
      have room := h.waiting.1
      show outer.length + 1 ≤ bound
      omega

end Evaluation
end PerfFormula
