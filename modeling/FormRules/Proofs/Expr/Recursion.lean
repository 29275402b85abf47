import FormRules.Expr.Parse

/-!
# The recursion of the parser

A property of calls of the parsing functions holds of every call if it holds of one whenever it
holds of those that the call makes. That each of these has fewer tokens left or a tighter level is
seen here once for all such properties.
-/

namespace FormRules.Expr

theorem eq_comparison {level : Level} (h : level.form = .pair) : level = .comparison := by
  cases level <;> first | rfl | cases h

theorem eq_operand {level : Level} (h : level.form = .operand) : level = .operand := by
  cases level <;> first | rfl | cases h

/-- Properties of calls that are inherited from the calls that they make: of a level, of a chain
that continues what stands to its left, of an operand and of arguments. -/
structure Inherited (AtLevel : Level → Cursor → Prop) (Chain : Level → Sized → Cursor → Prop)
    (Operand Arguments : Cursor → Prop) : Prop where
  chain {level : Level} {s : Cursor} : level.form = .chain → AtLevel level.tighter s →
    (∀ first s₁, s₁.left < s.left → Chain level first s₁) → AtLevel level s
  prefixed {level : Level} {s : Cursor} : level.form = .prefixed → AtLevel level.tighter s →
    (∀ t rest, s.rest = t :: rest → AtLevel level (s.goto rest).enter) → AtLevel level s
  pair {s : Cursor} : AtLevel .sum s →
    (∀ (s₁ : Cursor) t rest, s₁.left < s.left → s₁.rest = t :: rest →
      AtLevel .sum (s₁.goto rest)) → AtLevel .comparison s
  tightest {s : Cursor} : Operand s → AtLevel .operand s
  links {level : Level} {first : Sized} {s : Cursor} :
    (∀ t rest, s.rest = t :: rest → AtLevel level.tighter (s.goto rest)) →
    (∀ both s₂, s₂.left < s.left → Chain level both s₂) → Chain level first s
  operand {s : Cursor} : (∀ t rest, s.rest = t :: rest → AtLevel .or (s.goto rest).enter) →
    (∀ t t' rest, s.rest = t :: t' :: rest → Arguments (s.goto rest).enter) → Operand s
  arguments {s : Cursor} : AtLevel .or s →
    (∀ (s₁ : Cursor) t rest, s₁.left < s.left → s₁.rest = t :: rest →
      Arguments (s₁.goto rest)) → Arguments s

variable {AtLevel : Level → Cursor → Prop} {Chain : Level → Sized → Cursor → Prop}
  {Operand Arguments : Cursor → Prop}

mutual

theorem Inherited.parseAt (h : Inherited AtLevel Chain Operand Arguments) (level : Level)
    (s : Cursor) : AtLevel level s := by
  cases form : level.form with
  | chain =>
    have tighter : level.tighter.rank < level.rank :=
      Level.rank_tighter_lt (by rw [form]; decide)
    exact h.chain form (h.parseAt level.tighter s) fun first s₁ _ ↦ h.parseChain level first s₁
  | prefixed =>
    have tighter : level.tighter.rank < level.rank :=
      Level.rank_tighter_lt (by rw [form]; decide)
    refine h.prefixed form (h.parseAt level.tighter s) fun t rest hs ↦ ?_
    have fewer := Cursor.left_goto_lt hs
    exact h.parseAt level (s.goto rest).enter
  | pair =>
    obtain rfl := eq_comparison form
    refine h.pair (h.parseAt .sum s) fun s₁ t rest moved hs ↦ ?_
    have fewer := Cursor.left_goto_lt hs
    exact h.parseAt .sum (s₁.goto rest)
  | operand =>
    obtain rfl := eq_operand form
    exact h.tightest (h.parseOperand s)
termination_by 10 * s.left + (level.rank + 1)
decreasing_by
  · exact Nat.add_lt_add_left (Nat.succ_lt_succ tighter) _
  · omega
  · exact Nat.add_lt_add_left (Nat.succ_lt_succ tighter) _
  · simp only [Cursor.left_enter]
    omega
  · obtain rfl := eq_comparison form
    simp only [Level.rank]
    omega
  · obtain rfl := eq_comparison form
    simp only [Level.rank]
    omega
  · omega

theorem Inherited.parseChain (h : Inherited AtLevel Chain Operand Arguments) (level : Level)
    (first : Sized) (s : Cursor) : Chain level first s := by
  refine h.links (fun t rest hs ↦ ?_) fun both s₂ fewer ↦ h.parseChain level both s₂
  have fewer := Cursor.left_goto_lt hs
  have bounded := level.tighter.rank_le
  exact h.parseAt level.tighter (s.goto rest)
termination_by 10 * s.left
decreasing_by
  · omega
  · omega

theorem Inherited.parseOperand (h : Inherited AtLevel Chain Operand Arguments) (s : Cursor) :
    Operand s := by
  refine h.operand (fun t rest hs ↦ ?_) fun t t' rest hs ↦ ?_
  · have fewer := Cursor.left_goto_lt hs
    exact h.parseAt .or (s.goto rest).enter
  · have fewer := Cursor.left_goto_lt hs
    exact h.parseArguments (s.goto rest).enter
termination_by 10 * s.left
decreasing_by
  · simp only [Cursor.left_enter, Level.rank]
    omega
  · simp only [Cursor.left_goto, Cursor.left_enter, List.length_cons] at fewer ⊢
    omega

theorem Inherited.parseArguments (h : Inherited AtLevel Chain Operand Arguments) (s : Cursor) :
    Arguments s := by
  refine h.arguments (h.parseAt .or s) fun s₁ t rest moved hs ↦ ?_
  have fewer := Cursor.left_goto_lt hs
  exact h.parseArguments (s₁.goto rest)
termination_by 10 * s.left + 9
decreasing_by
  · simp only [Level.rank]
    omega
  · omega

end

end FormRules.Expr
