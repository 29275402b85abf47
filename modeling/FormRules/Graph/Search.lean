import FormRules.Graph.Basic

/-!
# Searching a graph for its strongly connected components

A depth-first search that numbers the vertices in the order in which it meets them. The vertices of
unfinished components stand on a stack, and each vertex keeps the least number that is known to be
reachable from it among those. A vertex that is finished and reaches nothing before itself is the
root of a component, which is everything above it on the stack.

The search is a sequence of small steps, so a long chain of edges needs no deep recursion. It ends
because each step uses up an edge, a frame or a vertex that had no number.
-/

namespace FormRules

structure Search (ν : Type) where
  /-- The numbers of the vertices that have been met. -/
  index : OrderedMap ν Nat
  /-- The least number that each vertex is known to reach. -/
  low : OrderedMap ν Nat
  /-- The vertices of unfinished components, the last one first. -/
  stack : List ν
  onStack : List ν
  /-- The vertices under exploration, the innermost first, each with the place of its next edge. -/
  frames : List (ν × Nat)
  /-- The finished components in the order in which they were finished. -/
  components : List (List ν)

namespace Search

variable {ν : Type} [DecidableEq ν]

def start : Search ν := ⟨.empty, .empty, [], [], [], []⟩

def indexOf (s : Search ν) (v : ν) : Nat := (s.index.get? v).getD 0

def lowOf (s : Search ν) (v : ν) : Nat := (s.low.get? v).getD 0

/-- Numbers a vertex and begins to explore it. -/
def visit (s : Search ν) (v : ν) : Search ν :=
  { s with
    index := s.index.insert v s.index.size
    low := s.low.insert v s.index.size
    stack := v :: s.stack
    onStack := v :: s.onStack
    frames := (v, 0) :: s.frames }

def lower (s : Search ν) (v : ν) (number : Nat) : Search ν :=
  { s with low := s.low.insert v (min (s.lowOf v) number) }

/-- Takes the elements down to and including a root off a stack. -/
def popThrough (root : ν) : List ν → List ν × List ν
  | [] => ([], [])
  | v :: rest =>
    if v = root then ([v], rest)
    else
      let (popped, left) := popThrough root rest
      (v :: popped, left)

def complete (s : Search ν) (root : ν) : Search ν :=
  let (popped, left) := popThrough root s.stack
  { s with
    stack := left
    onStack := s.onStack.filter (· ∉ popped)
    components := s.components ++ [popped.reverse] }

/-- Follows the next edge of the innermost frame, or closes that frame. -/
def step (g : Graph ν) (s : Search ν) : Search ν :=
  match s.frames with
  | [] => s
  | (v, next) :: rest =>
    match (g.targets v)[next]? with
    | some w =>
      let s := { s with frames := (v, next + 1) :: rest }
      if ¬s.index.contains w then s.visit w
      else if w ∈ s.onStack then s.lower v (s.indexOf w)
      else s
    | none =>
      let s := { s with frames := rest }
      let s := if s.lowOf v = s.indexOf v then s.complete v else s
      match rest with
      | [] => s
      | (parent, _) :: _ => s.lower parent (s.lowOf v)

def frameCost (g : Graph ν) (frame : ν × Nat) : Nat := (g.targets frame.1).length - frame.2 + 1

def framesCost (g : Graph ν) : List (ν × Nat) → Nat
  | [] => 0
  | frame :: rest => frameCost g frame + framesCost g rest

/-- The steps that vertices without a number still cause at most. -/
def openCost (g : Graph ν) (index : OrderedMap ν Nat) : List ν → Nat
  | [] => 0
  | v :: rest =>
    (if index.contains v then 0 else (g.targets v).length + 2) + openCost g index rest

/-- The steps that a search still takes at most. -/
def cost (g : Graph ν) (s : Search ν) : Nat :=
  openCost g s.index g.vertices + framesCost g s.frames

theorem contains_insert (m : OrderedMap ν Nat) (v w : ν) (number : Nat) :
    (m.insert v number).contains w = (decide (v = w) || m.contains w) := by
  rw [OrderedMap.contains, OrderedMap.get?_insert]
  by_cases h : v = w <;> simp [h, OrderedMap.contains]

theorem openCost_insert_le (g : Graph ν) (index : OrderedMap ν Nat) (v : ν) (number : Nat)
    (vertices : List ν) : openCost g (index.insert v number) vertices ≤
      openCost g index vertices := by
  induction vertices with
  | nil => exact Nat.le_refl _
  | cons u rest ih =>
    rw [openCost, openCost, contains_insert]
    by_cases h : v = u
    · simp only [h, decide_true, Bool.true_or, if_true] at ih ⊢
      omega
    · simp only [h, decide_false, Bool.false_or] at ih ⊢
      omega

theorem openCost_insert {g : Graph ν} {index : OrderedMap ν Nat} {v : ν} {vertices : List ν}
    (number : Nat) (h : v ∈ vertices) (new : ¬index.contains v) :
    openCost g (index.insert v number) vertices + ((g.targets v).length + 2) ≤
      openCost g index vertices := by
  induction vertices with
  | nil => cases h
  | cons u rest ih =>
    rw [openCost, openCost, contains_insert]
    by_cases e : v = u
    · have := openCost_insert_le g index v number rest
      subst e
      simp only [decide_true, Bool.true_or, if_true, new]
      simp only [Bool.false_eq_true, if_false]
      omega
    · have := ih ((List.mem_cons.1 h).resolve_left e)
      simp only [e, decide_false, Bool.false_or]
      omega

theorem cost_visit_lt {g : Graph ν} {s : Search ν} {v : ν} (h : v ∈ g.vertices)
    (new : ¬s.index.contains v) : (s.visit v).cost g < s.cost g := by
  have := openCost_insert (g := g) s.index.size h new
  simp only [cost, visit, framesCost, frameCost, Nat.sub_zero]
  omega

theorem cost_step_lt {g : Graph ν} {s : Search ν} (h : s.frames ≠ []) :
    (s.step g).cost g < s.cost g := by
  unfold step
  split
  · contradiction
  · next v next rest frames =>
    split
    · next w edge =>
      have : next < (g.targets v).length := (List.getElem?_eq_some_iff.1 edge).1
      have cost : Search.cost g { s with frames := (v, next + 1) :: rest } < s.cost g := by
        simp only [Search.cost, frames, framesCost, frameCost]
        omega
      dsimp only
      split
      · next new =>
        exact Nat.lt_trans
          (cost_visit_lt (Graph.mem_vertices_of_mem_targets (List.mem_of_getElem? edge)) new) cost
      · split
        · exact cost
        · exact cost
    · have cost : Search.cost g { s with frames := rest } < s.cost g := by
        simp only [Search.cost, frames, framesCost, frameCost]
        omega
      dsimp only
      split <;> split <;> exact cost

def finish (g : Graph ν) (s : Search ν) : Search ν :=
  if s.frames = [] then s else finish g (s.step g)
termination_by s.cost g
decreasing_by exact cost_step_lt ‹_›

/-- Explores everything that a root reaches, unless it has been met before. -/
def explore (g : Graph ν) (s : Search ν) (root : ν) : Search ν :=
  if s.index.contains root then s else finish g (s.visit root)

end Search

namespace Graph

variable {ν : Type} [DecidableEq ν]

def search (g : Graph ν) : Search ν := g.nodes.foldl (Search.explore g) .start

/-- The strongly connected components, each after those that it leads to. -/
def components (g : Graph ν) : List (List ν) := g.search.components

end Graph

end FormRules
