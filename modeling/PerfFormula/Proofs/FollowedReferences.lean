import PerfFormula.Proofs.Stepwise

/-!
# References that are followed

Which of the texts that names refer to an evaluation reads depends on the values on its way: a
branch that is not selected is not evaluated, and a reference that is resolved already is not read
again. A step of the evaluation tells: it is about to look up a name that refers to a text, is not
resolved and is not being resolved. If that text cannot be read, the evaluation ends there, and it
ends with a text that cannot be read nowhere else.

Main statements:

* `Stepwise.last_of_ended` — what has ended took a last step.
* `Context.evaluate_unreadable_iff` — an evaluation ends with the text of a reference exactly when
  it follows the reference and the text cannot be read.
-/

namespace PerfFormula

namespace Stepwise

variable {σ ω : Type} {next : σ → Stepwise σ ω}

/-- What has ended went on until a last step. -/
theorem last_of_ended {s : σ} {o : ω} {n : Nat} (h : steps next n s = ended o) :
    ∃ m s', steps next m s = goesOn s' ∧ next s' = ended o := by
  induction n generalizing s with
  | zero => cases h
  | succ n ih =>
    rw [steps] at h
    cases here : next s with
    | goesOn s₁ =>
      rw [here] at h
      obtain ⟨m, s', later, last⟩ := ih h
      exact ⟨m + 1, s', by rw [steps, here]; exact later, last⟩
    | ended o' =>
      rw [here] at h
      exact ⟨0, s, rfl, here.trans h⟩

/-- There is one end. -/
theorem ended_unique {s : σ} {o o' : ω} (h : Leads next s (ended o))
    (h' : Leads next s (ended o')) : o = o' := by
  obtain ⟨n, hn⟩ := h
  obtain ⟨m, hm⟩ := h'
  have both := steps_of_le hn (Nat.le_max_left n m)
  rw [steps_of_le hm (Nat.le_max_right n m)] at both
  exact Stepwise.ended.inj both.symm

end Stepwise

namespace Context

open Evaluation Stepwise

variable {c : Context} {f : Formula} {text : String} {e : Unreadable SyntaxError}

/-- At this moment the text that a name refers to is read. -/
inductive Reads (c : Context) (text : String) : Moment → Prop where
  | reference {name : String} {outer : List Waiting} {run : Run} :
      NameMap.lookupIn name run.resolved = none → c.datum name = .ok (.reference text) →
      name ∉ resolvingIn outer → Reads c text ⟨.evaluate (.name name), outer, run⟩

/-- The evaluation of a formula comes to read a text that a name refers to. -/
def Follows (c : Context) (f : Formula) (text : String) : Prop :=
  ∃ n s, steps c.step n (.start f) = goesOn s ∧ c.Reads text s

/-- A step that reads a text ends if the text cannot be read. -/
theorem step_of_reads {s : Moment} (reads : c.Reads text s)
    (unread : Formula.parse text c.runtime = .error e) :
    c.step s = ended (.error (.unreadable text e), s.run) := by
  cases reads with
  | @reference name outer run absent reference fresh =>
    show c.stepName name outer run = _
    simp only [stepName, absent, reference, if_neg fresh, unread]

theorem reads_of_stepName {name : String} {outer : List Waiting} {run run' : Run}
    (h : c.stepName name outer run = ended (.error (.unreadable text e), run')) :
    c.Reads text ⟨.evaluate (.name name), outer, run⟩ ∧
      Formula.parse text c.runtime = .error e := by
  unfold stepName at h
  split at h
  · cases h
  · next absent =>
    split at h
    · cases h
    · cases h
    · cases h
    · next source reference =>
      split at h
      · cases h
      · next fresh =>
        split at h
        · next unread =>
          cases h
          exact ⟨.reference absent reference fresh, unread⟩
        · cases h

/-- No other step ends with a text that cannot be read. -/
theorem reads_of_step {s : Moment} {run : Run}
    (h : c.step s = ended (.error (.unreadable text e), run)) :
    c.Reads text s ∧ Formula.parse text c.runtime = .error e := by
  obtain ⟨task, outer, r⟩ := s
  cases task with
  | evaluate f =>
    cases f with
    | name n => exact reads_of_stepName h
    | _ => cases h
  | handOn x =>
    rcases outer with _ | ⟨w, outer⟩
    · cases h
    cases w with
    | right op y =>
      -- an operator may fail, but not over a text
      have applied : stepOut r x (.right op y :: outer) =
          ended (.error (.unreadable text e), run) := h
      simp only [stepOut] at applied
      split at applied <;> cases applied
    | _ => cases h

/-- An evaluation ends with a text that cannot be read exactly when a reference to that text is
followed. -/
theorem evaluate_unreadable_iff : (c.evaluate f).1 = .error (.unreadable text e) ↔
    c.Follows f text ∧ Formula.parse text c.runtime = .error e := by
  have ends := leads_evaluation c f
  constructor
  · intro failed
    obtain ⟨n, ended⟩ := ends
    obtain ⟨m, s, before, last⟩ := last_of_ended ended
    have outcome : c.runFormula f = (.error (.unreadable text e), (c.runFormula f).2) :=
      Prod.ext failed rfl
    rw [outcome] at last
    obtain ⟨reads, unread⟩ := reads_of_step last
    exact ⟨⟨m, s, before, reads⟩, unread⟩
  · rintro ⟨⟨n, s, before, reads⟩, unread⟩
    have here : Leads c.step (.start f) (ended (.error (.unreadable text e), s.run)) :=
      Leads.trans ⟨n, before⟩ (leads_of_ended (step_of_reads reads unread))
    exact congrArg Prod.fst (ended_unique ends here)

end Context
end PerfFormula
