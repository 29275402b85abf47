import FormRules.Proofs.Expr.Grammar

/-!
# The limits on a phrase

How deep a phrase nests and how high its tree is decide whether it is within the limits. The depth
around a phrase counts for all that is in it, and no part of a phrase exceeds a limit that the whole
keeps.
-/

namespace FormRules

mutual

/-- The greatest number of parentheses, argument lists and prefix operators of a phrase around any
place in it. An argument list counts also if it is empty. -/
def Phrase.nesting : {level : Level} → Phrase level → Nat
  | _, .chain _ first more => max first.nesting more.nesting
  | _, .applied _ _ _ operand => operand.nesting + 1
  | _, .plain _ operand => operand.nesting
  | _, .single only => only.nesting
  | _, .compared left _ _ _ right => max left.nesting right.nesting
  | _, .number _ | _, .text _ | _, .truth _ | _, .name _ _ _ => 0
  | _, .group inner => inner.nesting + 1
  | _, .call _ _ => 1
  | _, .callWith _ _ arguments => arguments.nesting + 1

def Links.nesting : {level inner : Level} → Links level inner → Nat
  | _, _, .done => 0
  | _, _, .link _ _ _ operand more => max operand.nesting more.nesting

def Arguments.nesting : Arguments → Nat
  | .last argument => argument.nesting
  | .cons argument more => max argument.nesting more.nesting

end

/-- At a certain depth, something of a certain nesting and height keeps both limits. -/
def Fits (depth nesting height : Nat) : Prop :=
  depth + nesting ≤ maxNesting ∧ height ≤ maxHeight

variable {depth nesting nesting' height height' : Nat}

theorem Fits.mono (h : Fits depth nesting' height') (nests : nesting ≤ nesting')
    (rises : height ≤ height') : Fits depth nesting height :=
  ⟨Nat.le_trans (Nat.add_le_add_left nests depth) h.1, Nat.le_trans rises h.2⟩

/-- What is one construct further in nests one construct less. -/
theorem fits_succ_iff : Fits (depth + 1) nesting height ↔ Fits depth (nesting + 1) height := by
  rw [Fits, Fits, Nat.add_assoc, Nat.add_comm 1]

theorem fits_max_iff : Fits depth (max nesting nesting') height ↔
    depth + nesting ≤ maxNesting ∧ Fits depth nesting' height := by
  unfold Fits
  omega

/-- A chain is at least as high as what stands to its left. -/
theorem Links.height_le : {level inner : Level} → (links : Links level inner) → (left : Expr) →
    left.height ≤ (links.tree left).height
  | _, _, .done, left => Nat.le_refl _
  | _, _, .link op _ _ operand more, left => by
    have lower : left.height ≤ (Expr.binary op left operand.tree 0).height := by
      rw [Expr.height]
      omega
    exact Nat.le_trans lower (more.height_le _)

end FormRules
