import Vouch.Graph.Adjacency

namespace Vouch

/-- Searching from one side: the identities reached last, and those not reached yet. -/
structure Side where
  front : List String
  rest : List String

namespace Side

/-- A search that has only reached its origin. -/
def start (g : Graph) (origin : String) : Side := ⟨[origin], g.ids.filter (· ≠ origin)⟩

/-- The identities one hop further on. -/
def next (g : Graph) (s : Side) : List String :=
  let found := g.beside s.front
  s.rest.filter (· ∈ found)

/-- The search one hop further on. -/
def grow (g : Graph) (s : Side) : Side :=
  let found := g.beside s.front
  ⟨s.next g, s.rest.filter (· ∉ found)⟩

theorem grow_rest_length_lt {g : Graph} {s : Side} (further : s.next g ≠ []) :
    (s.grow g).rest.length < s.rest.length := by
  obtain ⟨id, member⟩ := List.exists_mem_of_ne_nil _ further
  have found := List.mem_filter.1 member
  refine List.length_filter_lt_length_iff_exists.2 ⟨id, found.1, ?_⟩
  simpa using found.2

/-- What the search reaches, by the number of hops. -/
def levels (g : Graph) (s : Side) : List (List String) :=
  if _ : s.next g = [] then [s.front] else s.front :: levels g (s.grow g)
  termination_by s.rest.length
  decreasing_by exact grow_rest_length_lt ‹_›

/-- How many hops it takes until two searches meet. It is always the one with fewer identities in
front that goes on. -/
def meet (g : Graph) (hops : Nat) (near far : Side) : Option Nat :=
  if swap : far.front.length < near.front.length then meet g hops far near
  else if h : near.next g = [] then none
  else if (near.next g).any (· ∉ far.rest) then some (hops + 1)
  else meet g (hops + 1) (near.grow g) far
  termination_by
    (near.rest.length + far.rest.length, if far.front.length < near.front.length then 1 else 0)
  decreasing_by
    · rw [Nat.add_comm far.rest.length, if_pos swap, if_neg (Nat.lt_asymm swap)]
      exact Prod.Lex.right _ Nat.zero_lt_one
    · exact Prod.Lex.left _ _ (Nat.add_lt_add_right (grow_rest_length_lt h) _)

end Side

/-- The level on which an identity is. -/
def levelOf (levels : List (List String)) (id : String) : Option Nat :=
  levels.findIdx? (id ∈ ·)

namespace Graph

/-- The identities by the number of hops from an origin, as far as they can be reached. -/
def levelsFrom (g : Graph) (origin : String) : List (List String) :=
  (Side.start g origin).levels g

/-- The identities by the number of hops from the root. There are none if the root is not in the
graph. -/
def rootLevels (g : Graph) : List (List String) :=
  if g.hasNode g.root then g.levelsFrom g.root else []

/-- The number of hops from the root to each identity, by one search for all of them. There is none
for what cannot be reached. -/
def depths (g : Graph) : List (String × Option Nat) :=
  let levels := g.rootLevels
  g.ids.map fun id => (id, levelOf levels id)

/-- The number of hops from the root to one identity, by a search from both ends. The root has no
way to go, whether it is in the graph or not. -/
def depthOf (g : Graph) (id : String) : Option Nat :=
  if id = g.root then some 0
  else if !g.hasNode id || !g.hasNode g.root then none
  else Side.meet g 0 (.start g g.root) (.start g id)

/-- The identities within some number of hops from an origin. -/
def within (g : Graph) (origin : String) (hops : Nat) : List String :=
  ((g.levelsFrom origin).take (hops + 1)).flatten

end Graph

end Vouch
