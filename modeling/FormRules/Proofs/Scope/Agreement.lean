import FormRules.Proofs.Typing.Confidence
import FormRules.Scope.Build

/-!
# Inference reads variables only

Two environments with the same functions that tell the same of every variable of an expression tell
the same of the expression. Variables that are only compared, or only stand in arguments, need not
even be the same. A variable that is out of scope and one of which nothing is known cannot be told
apart.
-/

namespace FormRules

namespace Environment

/-- What is known of a variable, which is nothing if it is out of scope. -/
def known (env : Environment) (name : String) : Inference := (env.get? name).getD .unknown

/-- Two environments tell the same of certain variables and have the same functions. -/
structure Agree (names : List String) (env env' : Environment) : Prop where
  functions : env.functions = env'.functions
  known : ∀ name ∈ names, env.known name = env'.known name

variable {names names' : List String} {env env' : Environment}

theorem Agree.mono (h : Agree names env env') (sub : ∀ name ∈ names', name ∈ names) :
    Agree names' env env' :=
  ⟨h.functions, fun name member ↦ h.known name (sub name member)⟩

theorem Agree.function? (h : Agree names env env') (name : String) :
    env.function? name = env'.function? name := by
  rw [Environment.function?, h.functions]
  rfl

end Environment

open Environment

namespace Expr

variable {env env' : Environment}

/-- A variable stands in an expression outside all operands of comparisons and arguments of calls,
so that the expression is inferred from it. -/
def Consults (e : Expr) (name : String) : Prop := ∃ offset, e.RestsOn (.reference name offset)

theorem Consults.of_rests {above e : Expr} {name : String} (h : e.Consults name)
    (rests : ∀ part, e.RestsOn part → above.RestsOn part) : above.Consults name := by
  obtain ⟨offset, below⟩ := h
  exact ⟨offset, rests _ below⟩

theorem RestsOn.names_subset {e part : Expr} (h : e.RestsOn part) : part.names ⊆ e.names := by
  induction h with
  | self => exact List.Subset.refl _
  | operand _ ih => exact ih
  | left _ _ ih => exact List.subset_append_of_subset_left _ ih
  | right _ _ ih => exact List.subset_append_of_subset_right _ ih

theorem Consults.mem_names {e : Expr} {name : String} (h : e.Consults name) : name ∈ e.names := by
  obtain ⟨offset, rests⟩ := h
  exact rests.names_subset (List.mem_singleton_self name)

theorem infer_eq_of_consulted (functions : env.functions = env'.functions) : ∀ e : Expr,
    (∀ name, e.Consults name → env.known name = env'.known name) → e.infer env = e.infer env'
  | .literal _ _, _ => rfl
  | .reference name offset, h => h name ⟨offset, .self⟩
  | .unary op operand _, h => by
    have operand_eq := infer_eq_of_consulted functions operand fun name consulted ↦
      h name (consulted.of_rests fun _ ↦ .operand)
    rw [infer, infer, operand_eq]
  | .binary op left right _, h => by
    rw [infer, infer]
    split
    · rfl
    · next joins =>
      have joins := eq_false_of_ne_true joins
      have left_eq := infer_eq_of_consulted functions left fun name consulted ↦
        h name (consulted.of_rests fun _ ↦ .left joins)
      have right_eq := infer_eq_of_consulted functions right fun name consulted ↦
        h name (consulted.of_rests fun _ ↦ .right joins)
      rw [left_eq, right_eq]
  | .call name arguments _, _ => by
    rw [infer, infer, Environment.function?, Environment.function?, functions]

theorem infer_eq_of_agree (e : Expr) (h : Agree e.names env env') : e.infer env = e.infer env' :=
  infer_eq_of_consulted h.functions e fun name consulted ↦ h.known name consulted.mem_names

theorem inferText_eq_of_agree {text : String} (h : Agree (textVariables text) env env') :
    inferText env text = inferText env' text := by
  rw [inferText, inferText]
  unfold textVariables at h
  cases parsed : parse text with
  | error fault => rfl
  | ok e =>
    rw [parsed] at h
    have names_agree : Agree e.names env env' := h.mono fun _ ↦ List.mem_eraseDups.2
    exact congrArg Except.ok (infer_eq_of_agree e names_agree)

end Expr

theorem Environment.inferRule_eq_of_agree {env env' : Environment} {text : String}
    (h : Agree (Expr.textVariables text) env env') : env.inferRule text = env'.inferRule text := by
  rw [inferRule, inferRule, Expr.inferText_eq_of_agree h]

end FormRules
