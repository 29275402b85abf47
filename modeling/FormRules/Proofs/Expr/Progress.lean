import FormRules.Proofs.Expr.Attempted

/-!
# The progress of the parser

The places that a walk goes through never lie further back than those before them and never beyond
the end of the list. What is entered on the way is left again, and the height that is noted for a
tree is its height. All of this holds of single steps and is kept where steps are put together,
so it holds of the parsing functions however many calls they may open. That each call ends, and ends
further on if it ends with a value, needs enough of them.
-/

namespace FormRules

variable {list : TokenList} {α β : Type}

/-- The height that is noted for a tree is its height. -/
def Sized.Measured (node : Sized) : Prop := node.height = node.expr.height

def Sized.AllMeasured (nodes : List Sized) : Prop := ∀ node ∈ nodes, node.Measured

theorem Sized.greatest_eq {nodes : List Sized} (h : AllMeasured nodes) :
    greatest nodes = Expr.heightAll (nodes.map Sized.expr) := by
  induction nodes with
  | nil => rfl
  | cons node rest ih =>
    rw [greatest, List.map_cons, Expr.heightAll, h node List.mem_cons_self,
      ih fun node' later ↦ h node' (List.mem_cons_of_mem _ later)]

/-! ## Passages -/

/-- A walk goes through places from one place to another. None lies further back than those before
it or beyond the end of the list, the last is as deep as the first, and none is beyond the limit
unless the first is. -/
structure Passage (list : TokenList) (head : Head) (through : List Head) (head' : Head) :
    Prop where
  forward : (head :: through).Pairwise fun place later ↦ place.position ≤ later.position
  ends : (head :: through).getLast? = some head'
  inside : ∀ place ∈ through, place.position ≤ list.tokens.length
  restored : head'.depth = head.depth
  limited : ∀ place ∈ through, place.depth ≤ max head.depth maxNesting

namespace Passage

variable {head head' head'' place : Head} {through further : List Head}

theorem refl (list : TokenList) (head : Head) : Passage list head [] head :=
  ⟨List.pairwise_singleton _ _, rfl, List.forall_mem_nil _, rfl, List.forall_mem_nil _⟩

theorem step (onward : head.position ≤ head'.position)
    (inside : head'.position ≤ list.tokens.length) (restored : head'.depth = head.depth) :
    Passage list head [head'] head' where
  forward := List.pairwise_pair.mpr onward
  ends := rfl
  inside := List.forall_mem_singleton.mpr inside
  restored := restored
  limited := List.forall_mem_singleton.mpr (restored ▸ Nat.le_max_left _ _)

theorem position_le (h : Passage list head through head') (member : place ∈ head :: through) :
    place.position ≤ head'.position := by
  obtain ⟨before, split⟩ := List.getLast?_eq_some_iff.mp h.ends
  have forward := h.forward
  rw [split] at member forward
  rcases List.mem_append.mp member with earlier | last
  · exact (List.pairwise_append.mp forward).2.2 _ earlier _ (List.mem_singleton_self _)
  · rw [List.mem_singleton.mp last]

theorem within (h : Passage list head through head')
    (inside : head.position ≤ list.tokens.length) : head'.position ≤ list.tokens.length := by
  rcases List.mem_cons.mp (List.mem_of_getLast? h.ends) with rfl | later
  · exact inside
  · exact h.inside _ later

theorem trans (h : Passage list head through head') (h' : Passage list head' further head'') :
    Passage list head (through ++ further) head'' where
  forward := by
    have later := List.pairwise_cons.mp h'.forward
    rw [← List.cons_append, List.pairwise_append]
    exact ⟨h.forward, later.2, fun _ before _ after ↦
      (h.position_le before).trans (later.1 _ after)⟩
  ends := by
    rw [← List.cons_append, List.getLast?_append, h.ends]
    cases further with
    | nil => exact h'.ends
    | cons next rest =>
      have last : (next :: rest).getLast? = some head'' := List.getLast?_cons_cons ▸ h'.ends
      rw [last]
      rfl
  inside := List.forall_mem_append.mpr ⟨h.inside, h'.inside⟩
  restored := h'.restored.trans h.restored
  limited := List.forall_mem_append.mpr ⟨h.limited, h.restored ▸ h'.limited⟩

/-- What is entered where the limit allows it is left again. -/
theorem nested (h : Passage list head.enter through head') (room : head.depth < maxNesting)
    (inside : head.position ≤ list.tokens.length) :
    Passage list head (head.enter :: (through ++ [head'.leave])) head'.leave where
  forward := by
    have onward := h.position_le List.mem_cons_self
    have same : head.enter.position = head.position := rfl
    rw [← List.cons_append, List.pairwise_cons, List.pairwise_append]
    refine ⟨List.forall_mem_append.mpr ⟨?_, ?_⟩, h.forward, List.pairwise_singleton _ _, ?_⟩
    · exact List.forall_mem_cons.mpr ⟨Nat.le_refl _, (List.pairwise_cons.mp h.forward).1⟩
    · exact List.forall_mem_singleton.mpr onward
    · exact fun place before ↦ List.forall_mem_singleton.mpr (h.position_le before)
  ends := by
    rw [← List.cons_append, ← List.cons_append, List.getLast?_concat]
  inside := by
    refine List.forall_mem_cons.mpr ⟨inside, List.forall_mem_append.mpr ⟨h.inside, ?_⟩⟩
    exact List.forall_mem_singleton.mpr (h.within inside)
  restored := by
    rw [Head.leave, h.restored]
    exact Nat.add_sub_cancel head.depth 1
  limited := by
    have deepest : max head.enter.depth maxNesting ≤ max head.depth maxNesting := by
      change max (head.depth + 1) maxNesting ≤ _
      omega
    have left : head'.leave.depth ≤ max head.depth maxNesting := by
      change head'.depth - 1 ≤ _
      rw [h.restored]
      change head.depth + 1 - 1 ≤ _
      omega
    refine List.forall_mem_cons.mpr ⟨(Nat.le_max_left _ _).trans deepest, ?_⟩
    exact List.forall_mem_append.mpr ⟨fun place member ↦ (h.limited place member).trans deepest,
      List.forall_mem_singleton.mpr left⟩

end Passage

namespace Attempt

open Cursor

/-! ## What is kept where steps are put together -/

/-- Wherever a walk begins, its places are in that order, and a value with which it ends satisfies a
condition. It is given up only if its calls may be spent. -/
def Keeps (list : TokenList) (spent : Prop) (post : α → Prop) (attempt : Attempt α) : Prop :=
  ∀ head, head.position ≤ list.tokens.length →
    match attempt.walk head with
    | none => spent
    | some ending => Passage list head ending.through ending.head ∧
      ∀ value, ending.result = .ok value → post value

variable {spent : Prop} {post : α → Prop} {post' : β → Prop} {n : Nat}

theorem keeps_exhausted (h : spent) : (exhausted : Attempt α).Keeps list spent post :=
  fun _ _ ↦ h

theorem keeps_fail (fault : SyntaxError) : (fail fault : Attempt α).Keeps list spent post :=
  fun head _ ↦ ⟨.refl list head, nofun⟩

theorem keeps_pure {value : α} (h : post value) :
    (pure value : Attempt α).Keeps list spent post := by
  refine fun head _ ↦ ⟨.refl list head, ?_⟩
  rintro value ⟨⟩
  exact h

theorem keeps_tell (f : Head → α) : (tell f).Keeps list spent fun _ ↦ True :=
  fun head _ ↦ ⟨.refl list head, fun _ _ ↦ trivial⟩

theorem keeps_advance : (advance list).Keeps list spent fun _ ↦ True := by
  refine fun head inside ↦ ⟨?_, fun _ _ ↦ trivial⟩
  dsimp only
  split
  · next room => exact .step (Nat.le_succ _) room rfl
  · exact .step (Nat.le_refl _) inside rfl

theorem Keeps.bind {first : Attempt α} {next : α → Attempt β} (h : first.Keeps list spent post)
    (further : ∀ value, post value → (next value).Keeps list spent post') :
    (first >>= next).Keeps list spent post' := by
  intro head inside
  have kept := h head inside
  dsimp only [Bind.bind]
  split at kept
  · next given =>
    rw [given]
    exact kept
  · next ending walked =>
    obtain ⟨result, head', through⟩ := ending
    obtain ⟨passage, holds⟩ := kept
    rw [walked]
    cases result with
    | error fault => exact ⟨passage, nofun⟩
    | ok value =>
      have kept' := further value (holds value rfl) head' (passage.within inside)
      dsimp only
      split at kept'
      · next given' =>
        rw [given']
        exact kept'
      · next ending' walked' =>
        rw [walked']
        exact ⟨passage.trans kept'.1, kept'.2⟩

theorem keeps_failHere (cause : SyntaxError.Cause) :
    (failHere list cause : Attempt α).Keeps list spent post :=
  (keeps_tell _).bind fun _ _ ↦ keeps_fail _

theorem Keeps.nested {inner : Attempt α} (h : inner.Keeps list spent post) :
    (nested list inner).Keeps list spent post := by
  intro head inside
  by_cases room : head.depth < maxNesting
  · have kept := h head.enter inside
    rw [walk_nested room]
    split at kept
    · next given =>
      rw [given]
      exact kept
    · next ending walked =>
      rw [walked]
      exact ⟨kept.1.nested room inside, kept.2⟩
  · have refused : (failHere list .nestedTooDeeply : Attempt α).Keeps list spent post :=
      keeps_failHere _
    rw [walk_nested_of_deep room]
    exact refused head inside

theorem keeps_closing (opening : Nat) {value : α} (h : post value) :
    (closing list opening value).Keeps list spent post := by
  refine (keeps_tell _).bind fun found _ ↦ ?_
  cases found with
  | none => exact keeps_fail _
  | some found =>
    dsimp only
    split
    · exact keeps_advance.bind fun _ _ ↦ keeps_pure h
    · exact keeps_failHere _

theorem keeps_grow {e : Expr} {height : Nat} (h : height = e.height) :
    (grow e height).Keeps list spent Sized.Measured := by
  unfold grow
  split
  · exact keeps_pure h
  · exact keeps_fail _

theorem keeps_grow_call (name : String) (offset : Nat) {nodes : List Sized}
    (h : Sized.AllMeasured nodes) :
    (grow (.call name (nodes.map Sized.expr) offset) (Sized.greatest nodes + 1)).Keeps list spent
      Sized.Measured := by
  apply keeps_grow
  rw [Expr.height, Sized.greatest_eq h]

theorem keeps_dottedName (h : spent) (name : String) :
    (dottedName list n name).Keeps list spent fun _ ↦ True := by
  induction n generalizing name with
  | zero => exact keeps_exhausted h
  | succ n ih =>
    refine (keeps_tell _).bind fun found _ ↦ ?_
    split
    · refine keeps_advance.bind fun _ _ ↦ (keeps_tell _).bind fun next _ ↦ ?_
      split
      · exact keeps_advance.bind fun _ _ ↦ ih _
      · exact keeps_failHere _
    · exact keeps_pure trivial

theorem Keeps.variableFrom {word : String} {offset : Nat}
    (h : (dottedName list n word).Keeps list spent fun _ ↦ True) :
    (variableFrom list n word offset).Keeps list spent Sized.Measured := by
  refine h.bind fun name _ ↦ (keeps_tell _).bind fun found _ ↦ ?_
  split
  · exact keeps_failHere _
  · exact keeps_pure rfl

theorem Keeps.enclosed {arguments : Attempt (List Sized)}
    (h : arguments.Keeps list spent Sized.AllMeasured) :
    (peek list >>= fun found ↦
      if found = some .rightParen then pure [] else arguments).Keeps list spent
      Sized.AllMeasured := by
  refine (keeps_tell _).bind fun found _ ↦ ?_
  split
  · exact keeps_pure (List.forall_mem_nil _)
  · exact h

theorem Keeps.call {arguments : Attempt (List Sized)}
    (h : arguments.Keeps list spent Sized.AllMeasured) (name : String)
    (offset : Nat) : (call list arguments name offset).Keeps list spent Sized.Measured := by
  refine (keeps_tell _).bind fun opening _ ↦ keeps_advance.bind fun _ _ ↦ ?_
  refine h.enclosed.nested.bind fun nodes measured ↦ ?_
  exact Keeps.bind (keeps_closing opening measured) fun nodes ↦ keeps_grow_call name offset

theorem Keeps.referenceFrom {arguments : Attempt (List Sized)}
    (h : arguments.Keeps list spent Sized.AllMeasured) {word : String}
    (named : (dottedName list n word).Keeps list spent fun _ ↦ True) (offset : Nat) :
    (referenceFrom list n arguments word offset).Keeps list spent Sized.Measured := by
  refine (keeps_tell _).bind fun next _ ↦ ?_
  split
  · exact h.call word offset
  · exact named.variableFrom

theorem Keeps.reference {arguments : Attempt (List Sized)}
    (h : arguments.Keeps list spent Sized.AllMeasured)
    (named : ∀ word, (dottedName list n word).Keeps list spent fun _ ↦ True) :
    (reference list n arguments).Keeps list spent Sized.Measured := by
  refine (keeps_tell _).bind fun offset _ ↦ (keeps_tell _).bind fun found _ ↦ ?_
  split
  · next w => exact keeps_advance.bind fun _ _ ↦ h.referenceFrom (named w) offset
  · exact keeps_failHere _

/-! ## The parsing functions -/

/-- What the parsing functions keep that may open a number of calls, of which nothing is required.
So this says nothing of whether there are enough of them. -/
structure Kept (list : TokenList) (n : Nat) : Prop where
  level (level : Level) : (parseAt list n level).Keeps list True Sized.Measured
  chain (level : Level) {first : Sized} (h : first.Measured) :
    (parseChain list n level first).Keeps list True Sized.Measured
  operand : (parseOperand list n).Keeps list True Sized.Measured
  arguments : (parseArguments list n).Keeps list True Sized.AllMeasured

theorem Kept.parseAt (h : Kept list n) (level : Level) :
    (parseAt list (n + 1) level).Keeps list True Sized.Measured := by
  rw [Attempt.parseAt]
  split
  · exact (h.level _).bind fun first measured ↦ h.chain level measured
  · refine (keeps_tell _).bind fun found _ ↦ ?_
    split
    · exact h.level _
    · next op spelled =>
      refine (keeps_tell _).bind fun offset _ ↦ keeps_advance.bind fun _ _ ↦ ?_
      refine (h.level level).nested.bind fun operand measured ↦ ?_
      exact keeps_grow (by rw [Expr.height, measured])
  · refine (h.level _).bind fun left left_measured ↦ (keeps_tell _).bind fun found _ ↦ ?_
    split
    · exact keeps_pure left_measured
    · next op spelled =>
      refine (keeps_tell _).bind fun offset _ ↦ keeps_advance.bind fun _ _ ↦ ?_
      refine (h.level _).bind fun right measured ↦ (keeps_tell _).bind fun next _ ↦ ?_
      split
      · exact keeps_failHere _
      · exact keeps_grow (by rw [Expr.height, left_measured, measured])
  · exact h.operand

theorem Kept.parseChain (h : Kept list n) (level : Level) {first : Sized}
    (first_measured : first.Measured) :
    (parseChain list (n + 1) level first).Keeps list True Sized.Measured := by
  rw [Attempt.parseChain]
  refine (keeps_tell _).bind fun found _ ↦ ?_
  split
  · exact keeps_pure first_measured
  · next op spelled =>
    refine (keeps_tell _).bind fun offset _ ↦ keeps_advance.bind fun _ _ ↦ ?_
    refine (h.level _).bind fun second measured ↦ ?_
    refine Keeps.bind (keeps_grow ?_) fun both measured ↦ h.chain level measured
    rw [Expr.height, first_measured, measured]

theorem Kept.parseOperand (h : Kept list n) :
    (parseOperand list (n + 1)).Keeps list True Sized.Measured := by
  rw [Attempt.parseOperand]
  refine (keeps_tell _).bind fun offset _ ↦ (keeps_tell _).bind fun found _ ↦ ?_
  split
  · exact keeps_advance.bind fun _ _ ↦ keeps_pure rfl
  · exact keeps_advance.bind fun _ _ ↦ keeps_pure rfl
  · next w =>
    split
    · exact keeps_advance.bind fun _ _ ↦ keeps_pure rfl
    · split
      · exact keeps_failHere _
      · exact h.arguments.reference (keeps_dottedName trivial)
  · refine keeps_advance.bind fun _ _ ↦ ?_
    exact (h.level .or).nested.bind fun inner measured ↦ keeps_closing _ measured
  · exact keeps_failHere _

theorem Kept.parseArguments (h : Kept list n) :
    (parseArguments list (n + 1)).Keeps list True Sized.AllMeasured := by
  rw [Attempt.parseArguments]
  refine (h.level .or).bind fun argument measured ↦ (keeps_tell _).bind fun found _ ↦ ?_
  split
  · refine keeps_advance.bind fun _ _ ↦ (keeps_tell _).bind fun next _ ↦ ?_
    split
    · exact keeps_failHere _
    · refine h.arguments.bind fun arguments all_measured ↦ ?_
      exact keeps_pure (List.forall_mem_cons.mpr ⟨measured, all_measured⟩)
  · exact keeps_pure (List.forall_mem_singleton.mpr measured)

theorem kept (list : TokenList) (n : Nat) : Kept list n := by
  induction n with
  | zero =>
    exact ⟨fun _ ↦ keeps_exhausted trivial, fun _ _ _ ↦ keeps_exhausted trivial,
      keeps_exhausted trivial, keeps_exhausted trivial⟩
  | succ n ih => exact ⟨ih.parseAt, ih.parseChain, ih.parseOperand, ih.parseArguments⟩

/-! ## Moving on -/

/-- Wherever a walk begins, it ends further on if it ends with a value. -/
def Advances (list : TokenList) (attempt : Attempt α) : Prop :=
  ∀ head ending value, head.position ≤ list.tokens.length → attempt.walk head = some ending →
    ending.result = .ok value → head.position < ending.head.position

theorem exists_of_walk_bind {first : Attempt α} {next : α → Attempt β} {head : Head}
    {ending : Ending β} {value : β} (h : (first >>= next).walk head = some ending)
    (ok : ending.result = .ok value) : ∃ middle given after, first.walk head = some middle ∧
      middle.result = .ok given ∧ (next given).walk middle.head = some after ∧
      after.result = .ok value ∧ after.head = ending.head := by
  dsimp only [Bind.bind] at h
  split at h
  · next given head' through walked =>
    obtain ⟨after, walked', rfl⟩ := Option.map_eq_some_iff.mp h
    exact ⟨_, given, after, walked, rfl, walked', ok, rfl⟩
  · cases h
    cases ok
  · cases h

theorem Keeps.advances_bind {first : Attempt α} {next : α → Attempt β}
    (h : first.Keeps list spent post)
    (moves : ∀ value, post value → (next value).Advances list) :
    (first >>= next).Advances list := by
  intro head ending value inside walked ok
  obtain ⟨middle, given, after, walked, given_ok, walked', ok, same⟩ :=
    exists_of_walk_bind walked ok
  have kept := h head inside
  rw [walked] at kept
  rw [← same]
  exact (kept.1.position_le List.mem_cons_self).trans_lt
    (moves given (kept.2 given given_ok) _ _ _ (kept.1.within inside) walked' ok)

theorem Advances.bind {first : Attempt α} {next : α → Attempt β} (moves : first.Advances list)
    (h : first.Keeps list spent post)
    (further : ∀ value, post value → (next value).Keeps list spent post') :
    (first >>= next).Advances list := by
  intro head ending value inside walked ok
  obtain ⟨middle, given, after, walked, given_ok, walked', -, same⟩ := exists_of_walk_bind walked ok
  have kept := h head inside
  rw [walked] at kept
  have kept' := further given (kept.2 given given_ok) middle.head (kept.1.within inside)
  rw [walked'] at kept'
  rw [← same]
  exact (moves _ _ _ inside walked given_ok).trans_le (kept'.1.position_le List.mem_cons_self)

theorem walk_tell_bind (f : Head → α) (next : α → Attempt β) (head : Head) :
    (tell f >>= next).walk head = (next (f head)).walk head := by
  dsimp only [Bind.bind, tell]
  cases (next (f head)).walk head <;> rfl

/-- Where a token stands, going past it moves on. -/
theorem lt_of_walk_advance {next : Unit → Attempt α} {head : Head} {ending : Ending α} {value : α}
    {t : PlacedToken} (stands : list.tokens[head.position]? = some t)
    (h : (next ()).Keeps list spent post)
    (walked : (advance list >>= next).walk head = some ending) (ok : ending.result = .ok value) :
    head.position < ending.head.position := by
  have room : head.position < list.tokens.length := (List.getElem?_eq_some_iff.mp stands).1
  obtain ⟨middle, given, after, gone, -, walked', -, same⟩ := exists_of_walk_bind walked ok
  have moved : middle.head.position = head.position + 1 := by
    dsimp only [advance] at gone
    rw [if_pos room] at gone
    cases gone
    rfl
  have kept := h middle.head (moved ▸ room)
  rw [walked'] at kept
  have onward := kept.1.position_le List.mem_cons_self
  rw [← same]
  omega

theorem advances_closing (opening : Nat) (value : α) :
    (closing list opening value).Advances list := by
  intro head ending value' inside walked ok
  rw [closing, peek, walk_tell_bind] at walked
  cases stands : list.tokens[head.position]? with
  | none =>
    rw [stands] at walked
    cases walked
    cases ok
  | some t =>
    rw [stands] at walked
    dsimp only [Option.map_some] at walked
    split at walked
    · have kept : (pure value : Attempt α).Keeps list False fun _ ↦ True := keeps_pure trivial
      exact lt_of_walk_advance stands kept walked ok
    · cases walked
      cases ok

theorem advances_call {arguments : Attempt (List Sized)}
    (h : arguments.Keeps list spent Sized.AllMeasured) (name : String) (offset : Nat) :
    (call list arguments name offset).Advances list := by
  have noted : (Attempt.offset list).Keeps list spent fun _ ↦ True := keeps_tell _
  have opened : (advance list).Keeps list spent fun _ ↦ True := keeps_advance
  refine noted.advances_bind fun opening _ ↦ opened.advances_bind fun _ _ ↦ ?_
  refine h.enclosed.nested.advances_bind fun nodes measured ↦ ?_
  have closed : (closing list opening nodes).Keeps list spent Sized.AllMeasured :=
    keeps_closing opening measured
  exact (advances_closing opening nodes).bind closed fun nodes ↦ keeps_grow_call name offset

theorem advances_reference {arguments : Attempt (List Sized)}
    (h : arguments.Keeps list spent Sized.AllMeasured)
    (named : ∀ word, (dottedName list n word).Keeps list spent fun _ ↦ True) :
    (reference list n arguments).Advances list := by
  intro head ending value inside walked ok
  rw [reference, offset, walk_tell_bind, peek, walk_tell_bind] at walked
  cases stands : list.tokens[head.position]? with
  | none =>
    rw [stands] at walked
    cases walked
    cases ok
  | some t =>
    rw [stands] at walked
    dsimp only [Option.map_some, Option.getD_some] at walked
    split at walked
    · next w spelled =>
      exact lt_of_walk_advance stands (h.referenceFrom (named w) t.offset) walked ok
    · cases walked
      cases ok

/-! ## Enough calls -/

theorem exists_told {bound : Nat} (list : TokenList) (answer : Parsed bound α) :
    ∃ told, answer.told list = some told := by
  cases answer <;> exact ⟨_, rfl⟩

/-- A walk that ends everywhere keeps what it keeps without being given up. -/
theorem Keeps.complete {attempt : Attempt α} (kept : attempt.Keeps list True post)
    (ends : ∀ head, head.position ≤ list.tokens.length → ∃ told, attempt.run head = some told) :
    attempt.Keeps list False post := by
  intro head inside
  have kept := kept head inside
  obtain ⟨_, here⟩ := ends head inside
  obtain ⟨ending, walked, -⟩ := Option.map_eq_some_iff.mp here
  rw [walked] at kept ⊢
  exact kept

theorem keeps_dottedName_of_length_lt (enough : list.tokens.length < n) (name : String) :
    (dottedName list n name).Keeps list False fun _ ↦ True := by
  refine (keeps_dottedName trivial name).complete fun head inside ↦ ?_
  have within := within_cursor list head
  have read := run_dottedName name within (within.left_le.trans_lt enough)
  rw [head_cursor inside] at read
  rw [read]
  split <;> exact ⟨_, rfl⟩

theorem advances_of_told {bound : Nat} {answer : Parsed bound α} {head : Head} {ending : Ending α}
    {value : α} (before : bound ≤ list.tokens.length - head.position)
    (h : some (ending.result, ending.head) = answer.told list) (ok : ending.result = .ok value) :
    head.position < ending.head.position := by
  rw [ok] at h
  cases answer with
  | error fault s => cases h
  | ok value' s moved =>
    have stands : ending.head.position = list.tokens.length - s.left :=
      congrArg Head.position (Prod.mk.inj (Option.some.inj h)).2
    omega

/-- With calls enough for the answers of the parser, a walk is never given up and moves on. -/
theorem Keeps.of_told {attempt : Attempt α} {answer : (s : Cursor) → Parsed s.left α}
    (kept : attempt.Keeps list True post)
    (told : ∀ s, s.Within list → attempt.run (list.head s) = (answer s).told list) :
    attempt.Keeps list False post ∧ attempt.Advances list := by
  have told_here : ∀ head, head.position ≤ list.tokens.length →
      attempt.run head = (answer (list.cursor head)).told list := by
    intro head inside
    have here := told _ (within_cursor list head)
    rwa [head_cursor inside] at here
  constructor
  · refine kept.complete fun head inside ↦ ?_
    rw [told_here head inside]
    exact exists_told list _
  · intro head ending value inside walked ok
    have here := told_here head inside
    rw [run, walked] at here
    exact advances_of_told (Nat.le_of_eq (List.length_drop ..)) here ok

/-- A walk from a place ends, and its places are in order. If it ends with a value, then further on
and with one that satisfies a condition. -/
def Orderly (list : TokenList) (head : Head) (post : α → Prop) (attempt : Attempt α) : Prop :=
  ∃ ending, attempt.walk head = some ending ∧ Passage list head ending.through ending.head ∧
    ∀ value, ending.result = .ok value → head.position < ending.head.position ∧ post value

theorem Keeps.orderly {attempt : Attempt α} {head : Head} (kept : attempt.Keeps list False post)
    (moves : attempt.Advances list) (inside : head.position ≤ list.tokens.length) :
    attempt.Orderly list head post := by
  have kept := kept head inside
  split at kept
  · exact kept.elim
  · next ending walked =>
    exact ⟨ending, walked, kept.1, fun value ok ↦
      ⟨moves head ending value inside walked ok, kept.2 value ok⟩⟩

/-- From every place in a token list every parsing function ends in order and with the answer of the
parser, if it may open ten calls for each token and ten for the end of the list. -/
theorem parser_orderly (list : TokenList) (head : Head)
    (inside : head.position ≤ list.tokens.length) (n : Nat)
    (enough : 10 * (list.tokens.length + 1) ≤ n) :
    (∀ level, (parseAt list n level).Orderly list head Sized.Measured ∧
      (parseAt list n level).run head = (Expr.parseAt level (list.cursor head)).told list) ∧
    ((parseOperand list n).Orderly list head Sized.Measured ∧
      (parseOperand list n).run head = (Expr.parseOperand (list.cursor head)).told list) ∧
    ((parseArguments list n).Orderly list head Sized.AllMeasured ∧
      (parseArguments list n).run head = (Expr.parseArguments (list.cursor head)).told list) ∧
    (reference list n (parseArguments list n)).Orderly list head Sized.Measured ∧
    ∀ name offset,
      (call list (parseArguments list n) name offset).Orderly list head Sized.Measured := by
  have within := within_cursor list head
  have arguments := (kept list n).arguments.of_told (run_parseArguments enough)
  have named : ∀ word, (dottedName list n word).Keeps list False fun _ ↦ True :=
    keeps_dottedName_of_length_lt (by omega)
  refine ⟨fun level ↦ ?_, ?_, ?_, ?_, fun name offset ↦ ?_⟩
  · have kept := ((kept list n).level level).of_told (run_parseAt enough level)
    refine ⟨kept.1.orderly kept.2 inside, ?_⟩
    rw [← run_parseAt enough level _ within, head_cursor inside]
  · have kept := (kept list n).operand.of_told (run_parseOperand enough)
    refine ⟨kept.1.orderly kept.2 inside, ?_⟩
    rw [← run_parseOperand enough _ within, head_cursor inside]
  · refine ⟨arguments.1.orderly arguments.2 inside, ?_⟩
    rw [← run_parseArguments enough _ within, head_cursor inside]
  · exact (arguments.1.reference named).orderly (advances_reference arguments.1 named) inside
  · exact (arguments.1.call name offset).orderly (advances_call arguments.1 name offset) inside

/-- Within a call of `f`, before its parenthesis where the depth is just below the limit, and before
it at the limit. -/
theorem parser_orderly_inside_call :
    let list : TokenList := ⟨[⟨.word "f", 0⟩, ⟨.leftParen, 1⟩, ⟨.number "1", 2⟩, ⟨.plus, 4⟩,
      ⟨.word "a", 6⟩, ⟨.rightParen, 7⟩], 8⟩
    let sum : Expr := .binary .add (.literal (.number "1") 2) (.reference "a" 6) 4
    ((parseAt list 70 .or).run ⟨2, 1⟩ = some (.ok ⟨sum, 2⟩, ⟨5, 1⟩) ∧
      (parseAt list 70 .or).Orderly list ⟨2, 1⟩ Sized.Measured) ∧
    ((call list (parseArguments list 70) "f" 0).run ⟨1, 63⟩ =
        some (.ok ⟨.call "f" [sum] 0, 3⟩, ⟨6, 63⟩) ∧
      (call list (parseArguments list 70) "f" 0).Orderly list ⟨1, 63⟩ Sized.Measured) ∧
    (parseOperand list 70).run ⟨1, 64⟩ = some (.error ⟨.nestedTooDeeply, 2⟩, ⟨2, 64⟩) ∧
      (parseOperand list 70).Orderly list ⟨1, 64⟩ Sized.Measured := by
  intro list sum
  obtain ⟨levels, -⟩ := parser_orderly list ⟨2, 1⟩ (by decide) 70 (by decide)
  obtain ⟨-, -, -, -, calls⟩ := parser_orderly list ⟨1, 63⟩ (by decide) 70 (by decide)
  obtain ⟨-, operand, -⟩ := parser_orderly list ⟨1, 64⟩ (by decide) 70 (by decide)
  exact ⟨⟨rfl, (levels .or).1⟩, ⟨rfl, calls "f" 0⟩, rfl, operand.1⟩

end Attempt

end FormRules
