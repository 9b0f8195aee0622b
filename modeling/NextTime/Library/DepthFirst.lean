import Mathlib.Data.List.Chain
import Mathlib.Data.List.Nodup
import Mathlib.Logic.Function.Basic
import Mathlib.Logic.Relation

/-
Depth-first search for a cycle. A vertex is visited while it is on the path and
done when everything it leads to is done; a vertex met again while visited closes
a cycle. The depth of the search is bounded by a fuel; the vertices that lead
anywhere, and two more, are enough of it.
-/

namespace DepthFirst

variable {Vertex : Type} [DecidableEq Vertex]

inductive Mark
  | visiting
  | done
deriving DecidableEq, Repr

structure Search (Vertex : Type) where
  state : Vertex → Option Mark
  path : List Vertex

def Search.empty : Search Vertex where
  state := fun _ => none
  path := []

def Search.enter (search : Search Vertex) (vertex : Vertex) : Search Vertex where
  state := Function.update search.state vertex (some .visiting)
  path := search.path ++ [vertex]

def Search.leave (search : Search Vertex) (vertex : Vertex) : Search Vertex where
  state := Function.update search.state vertex (some .done)
  path := search.path.dropLast

theorem Search.enter_other {search : Search Vertex} {vertex other : Vertex}
    (different : other ≠ vertex) : (search.enter vertex).state other = search.state other :=
  Function.update_of_ne different ..

@[simp]
theorem Search.leave_self (search : Search Vertex) (vertex : Vertex) :
    (search.leave vertex).state vertex = some .done :=
  Function.update_self ..

theorem Search.leave_other {search : Search Vertex} {vertex other : Vertex}
    (different : other ≠ vertex) : (search.leave vertex).state other = search.state other :=
  Function.update_of_ne different ..

/-- A cycle and no more of the search, or the search after it; none is out of fuel. -/
abbrev Found (Vertex : Type) := Option (Option (List Vertex) × Search Vertex)

/-- The vertices in order, up to the first that finds a cycle. -/
def visitEach (visit : Vertex → Search Vertex → Found Vertex) :
    List Vertex → Search Vertex → Found Vertex
  | [], search => some (none, search)
  | vertex :: rest, search =>
      match visit vertex search with
      | some (none, after) => visitEach visit rest after
      | stopped => stopped

def visit (next : Vertex → List Vertex) : Nat → Vertex → Search Vertex → Found Vertex
  | 0, _, _ => none
  | fuel + 1, vertex, search =>
      match search.state vertex with
      | some .done => some (none, search)
      | some .visiting =>
          some (some (search.path.drop (search.path.idxOf vertex) ++ [vertex]), search)
      | none =>
          match visitEach (visit next fuel) (next vertex) (search.enter vertex) with
          | some (none, after) => some (none, after.leave vertex)
          | stopped => stopped

/-- The first cycle met from the roots in order. -/
def cycleFrom (next : Vertex → List Vertex) (fuel : Nat) (roots : List Vertex) :
    Option (Option (List Vertex)) :=
  (visitEach (visit next fuel) roots .empty).map (·.1)

/-! ### The graph -/

def Edge (next : Vertex → List Vertex) (vertex successor : Vertex) : Prop :=
  successor ∈ next vertex

def Acyclic (next : Vertex → List Vertex) : Prop :=
  ∀ vertex, ¬ Relation.TransGen (Edge next) vertex vertex

/-- The vertices along a closed walk, the first of them repeated at the end. -/
def IsCycle (next : Vertex → List Vertex) (cycle : List Vertex) : Prop :=
  2 ≤ cycle.length ∧ cycle.head? = cycle.getLast? ∧ cycle.IsChain (Edge next)

/-- No endless walk starts at the vertex. -/
def Grounded (next : Vertex → List Vertex) : Vertex → Prop :=
  Acc fun successor vertex => Edge next vertex successor

omit [DecidableEq Vertex] in
theorem Grounded.not_cyclic {next : Vertex → List Vertex} {vertex : Vertex}
    (grounded : Grounded next vertex) : ¬ Relation.TransGen (Edge next) vertex vertex := by
  induction grounded with
  | intro vertex _ ih =>
      intro cyclic
      obtain ⟨successor, edge, back⟩ := Relation.TransGen.head'_iff.mp cyclic
      exact ih successor edge (.tail' back edge)

omit [DecidableEq Vertex] in
theorem transGen_of_chain {next : Vertex → List Vertex} {first last : Vertex}
    {between : List Vertex}
    (chain : (first :: (between ++ [last])).IsChain (Edge next)) :
    Relation.TransGen (Edge next) first last := by
  induction between generalizing first with
  | nil => exact .single (List.isChain_cons_cons.mp chain).1
  | cons vertex rest ih =>
      rw [List.cons_append, List.isChain_cons_cons] at chain
      exact .head chain.1 (ih chain.2)

omit [DecidableEq Vertex] in
theorem IsCycle.not_acyclic {next : Vertex → List Vertex} {cycle : List Vertex}
    (isCycle : IsCycle next cycle) : ¬ Acyclic next := by
  obtain ⟨long, closed, chain⟩ := isCycle
  intro acyclic
  cases cycle with
  | nil => cases long
  | cons first rest =>
      cases List.eq_nil_or_concat rest with
      | inl empty =>
          rw [empty] at long
          simp at long
      | inr split =>
          obtain ⟨between, last, rfl⟩ := split
          simp only [List.concat_eq_append] at closed chain
          have same : first = last := by
            rw [← List.cons_append, List.getLast?_append] at closed
            simpa using closed
          apply acyclic first
          have walk := transGen_of_chain chain
          rwa [← same] at walk

/-! ### What the search keeps -/

structure Search.Sound (next : Vertex → List Vertex) (search : Search Vertex) : Prop where
  visiting : ∀ vertex, search.state vertex = some .visiting ↔ vertex ∈ search.path
  distinct : search.path.Nodup
  chain : search.path.IsChain (Edge next)
  grounded : ∀ vertex, search.state vertex = some .done → Grounded next vertex

/-- The vertex is a successor of the last one on the path. -/
def Search.LeadsTo (next : Vertex → List Vertex) (search : Search Vertex) (vertex : Vertex) :
    Prop :=
  ∀ last ∈ search.path.getLast?, Edge next last vertex

/-- What became of the vertices: a cycle, or a search with the same path in which all
of them are done. -/
def Explored (next : Vertex → List Vertex) (search : Search Vertex) (vertices : List Vertex) :
    Option (List Vertex) × Search Vertex → Prop
  | (some cycle, _) => IsCycle next cycle
  | (none, after) =>
      after.Sound next ∧ after.path = search.path ∧
        (∀ vertex, search.state vertex = some .done → after.state vertex = some .done) ∧
        ∀ vertex ∈ vertices, after.state vertex = some .done

omit [DecidableEq Vertex] in
theorem Search.empty_sound (next : Vertex → List Vertex) :
    (Search.empty : Search Vertex).Sound next where
  visiting := fun vertex => by simp [Search.empty]
  distinct := List.nodup_nil
  chain := .nil
  grounded := fun _ done => by cases done

theorem Search.Sound.enter {next : Vertex → List Vertex} {search : Search Vertex} {vertex : Vertex}
    (sound : search.Sound next) (fresh : search.state vertex = none)
    (leads : search.LeadsTo next vertex) : (search.enter vertex).Sound next := by
  have absent : vertex ∉ search.path := by
    intro onPath
    rw [(sound.visiting vertex).mpr onPath] at fresh
    cases fresh
  constructor
  · intro other
    by_cases same : other = vertex
    · simp [Search.enter, same]
    · simp [Search.enter, sound.visiting other, same]
  · apply List.Nodup.append sound.distinct (List.nodup_singleton vertex)
    simpa using absent
  · apply List.IsChain.append sound.chain (List.isChain_singleton vertex)
    intro last isLast first isFirst
    rw [List.head?_cons, Option.mem_some_iff] at isFirst
    exact isFirst ▸ leads last isLast
  · intro other done
    by_cases same : other = vertex
    · simp [Search.enter, same] at done
    · rw [Search.enter_other same] at done
      exact sound.grounded other done

/-- The vertex is left once all its successors are done. -/
theorem Search.Sound.leave {next : Vertex → List Vertex} {search after : Search Vertex}
    {vertex : Vertex} (sound : after.Sound next) (path : after.path = search.path ++ [vertex])
    (successors : ∀ successor ∈ next vertex, after.state successor = some .done) :
    (after.leave vertex).Sound next := by
  have dropped : (after.leave vertex).path = search.path := by
    rw [Search.leave, path, List.dropLast_concat]
  have distinct := sound.distinct
  rw [path, List.nodup_append] at distinct
  have chain := sound.chain
  rw [path, List.isChain_append] at chain
  constructor
  · intro other
    rw [dropped]
    by_cases same : other = vertex
    · have absent : vertex ∉ search.path := fun onPath =>
        distinct.2.2 vertex onPath vertex (List.mem_singleton_self vertex) rfl
      simp [Search.leave, same, absent]
    · simp [Search.leave, sound.visiting other, path, same]
  · rw [dropped]
    exact distinct.1
  · rw [dropped]
    exact chain.1
  · intro other done
    by_cases same : other = vertex
    · constructor
      intro successor edge
      exact sound.grounded successor (successors successor (same ▸ edge))
    · rw [Search.leave_other same] at done
      exact sound.grounded other done

omit [DecidableEq Vertex] in
theorem visitEach_explored {next : Vertex → List Vertex}
    {visitor : Vertex → Search Vertex → Found Vertex} {vertices : List Vertex}
    (each : ∀ vertex ∈ vertices, ∀ search found, search.Sound next → search.LeadsTo next vertex →
      visitor vertex search = some found → Explored next search [vertex] found)
    {search : Search Vertex} {found : Option (List Vertex) × Search Vertex}
    (sound : search.Sound next) (leads : ∀ vertex ∈ vertices, search.LeadsTo next vertex)
    (visited : visitEach visitor vertices search = some found) :
    Explored next search vertices found := by
  induction vertices generalizing search with
  | nil =>
      rw [visitEach, Option.some.injEq] at visited
      rw [← visited]
      exact ⟨sound, rfl, fun _ done => done, fun _ member => by cases member⟩
  | cons vertex rest ih =>
      rw [visitEach] at visited
      have first := each vertex List.mem_cons_self search
      split at visited
      next after answered =>
        obtain ⟨laterSound, path, grows, done⟩ := first _ sound
          (leads vertex List.mem_cons_self) answered
        have later := ih (fun other member => each other (List.mem_cons_of_mem _ member))
          laterSound (fun other member => by
            rw [Search.LeadsTo, path]
            exact leads other (List.mem_cons_of_mem _ member)) visited
        obtain ⟨result, last⟩ := found
        cases result with
        | some cycle => exact later
        | none =>
            obtain ⟨lastSound, lastPath, lastGrows, lastDone⟩ := later
            constructor
            · exact lastSound
            · constructor
              · exact lastPath.trans path
              · constructor
                · exact fun other known => lastGrows other (grows other known)
                · intro other member
                  cases List.mem_cons.mp member with
                  | inl same => exact same ▸ lastGrows vertex (done vertex (by simp))
                  | inr inRest => exact lastDone other inRest
      next notThrough =>
        obtain ⟨result, last⟩ := found
        cases result with
        | some cycle => exact first _ sound (leads vertex List.mem_cons_self) visited
        | none => exact absurd visited (notThrough last)

/-- A vertex met again on the path closes a cycle. -/
theorem Search.Sound.closes {next : Vertex → List Vertex} {search : Search Vertex}
    {vertex : Vertex} (sound : search.Sound next) (leads : search.LeadsTo next vertex)
    (onPath : vertex ∈ search.path) :
    IsCycle next (search.path.drop (search.path.idxOf vertex) ++ [vertex]) := by
  have within := List.idxOf_lt_length_of_mem onPath
  have starts : search.path.drop (search.path.idxOf vertex) =
      vertex :: search.path.drop (search.path.idxOf vertex + 1) := by
    rw [List.drop_eq_getElem_cons within, List.getElem_idxOf within]
  constructor
  · rw [starts, List.length_append, List.length_cons, List.length_singleton]
    omega
  · constructor
    · rw [starts, List.getLast?_append]
      simp
    · apply List.IsChain.append (sound.chain.drop _) (List.isChain_singleton vertex)
      intro last isLast first isFirst
      rw [List.head?_cons, Option.mem_some_iff] at isFirst
      rw [List.getLast?_drop, if_neg (by omega)] at isLast
      exact isFirst ▸ leads last isLast

theorem visit_explored {next : Vertex → List Vertex} {fuel : Nat} {vertex : Vertex}
    {search : Search Vertex} {found : Option (List Vertex) × Search Vertex}
    (sound : search.Sound next) (leads : search.LeadsTo next vertex)
    (visited : visit next fuel vertex search = some found) :
    Explored next search [vertex] found := by
  induction fuel generalizing vertex search found with
  | zero => cases visited
  | succ fuel ih =>
      rw [visit] at visited
      split at visited
      next done =>
        rw [Option.some.injEq] at visited
        rw [← visited]
        exact ⟨sound, rfl, fun _ known => known, fun other member => by
          rw [List.mem_singleton.mp member]
          exact done⟩
      next seen =>
        rw [Option.some.injEq] at visited
        rw [← visited]
        exact sound.closes leads ((sound.visiting vertex).mp seen)
      next fresh =>
        have inside : ∀ found, visitEach (visit next fuel) (next vertex) (search.enter vertex) =
            some found → Explored next (search.enter vertex) (next vertex) found := by
          intro found visited
          apply visitEach_explored _ (sound.enter fresh leads) _ visited
          · exact fun _ _ _ _ sound leads visited => ih sound leads visited
          · intro successor edge last isLast
            rw [Search.enter, List.getLast?_concat, Option.mem_some_iff] at isLast
            exact isLast ▸ edge
        split at visited
        next after answered =>
          rw [Option.some.injEq] at visited
          rw [← visited]
          obtain ⟨afterSound, path, grows, done⟩ := inside _ answered
          constructor
          · exact afterSound.leave path done
          · constructor
            · rw [Search.leave, path, Search.enter, List.dropLast_concat]
            · constructor
              · intro other known
                by_cases same : other = vertex
                · simp [Search.leave, same]
                · rw [Search.leave_other same]
                  apply grows
                  rw [Search.enter_other same]
                  exact known
              · intro other member
                rw [List.mem_singleton.mp member]
                exact after.leave_self vertex
        next notThrough =>
          obtain ⟨result, last⟩ := found
          cases result with
          | some cycle => exact inside _ visited
          | none => exact absurd visited (notThrough last)

/-! ### The search ends -/

omit [DecidableEq Vertex] in
theorem visitEach_returns {next : Vertex → List Vertex}
    {visitor : Vertex → Search Vertex → Found Vertex} {vertices : List Vertex}
    {path : List Vertex}
    (explores : ∀ vertex ∈ vertices, ∀ search found, search.Sound next →
      search.LeadsTo next vertex → visitor vertex search = some found →
      Explored next search [vertex] found)
    (returns : ∀ vertex ∈ vertices, ∀ search : Search Vertex, search.Sound next →
      search.path = path → visitor vertex search ≠ none)
    {search : Search Vertex} (sound : search.Sound next) (here : search.path = path)
    (leads : ∀ vertex ∈ vertices, search.LeadsTo next vertex) :
    visitEach visitor vertices search ≠ none := by
  induction vertices generalizing search with
  | nil => exact Option.some_ne_none _
  | cons vertex rest ih =>
      rw [visitEach]
      split
      next after answered =>
        obtain ⟨afterSound, same, _⟩ := explores vertex List.mem_cons_self search _ sound
          (leads vertex List.mem_cons_self) answered
        apply ih
        · exact fun other member => explores other (List.mem_cons_of_mem _ member)
        · exact fun other member => returns other (List.mem_cons_of_mem _ member)
        · exact afterSound
        · exact same.trans here
        · intro other member
          rw [Search.LeadsTo, same]
          exact leads other (List.mem_cons_of_mem _ member)
      next => exact returns vertex List.mem_cons_self search sound here

/-- The vertices that lead anywhere, and two more, are enough fuel. -/
theorem visit_returns {next : Vertex → List Vertex} {inner : List Vertex}
    (leading : ∀ vertex, next vertex ≠ [] → vertex ∈ inner) {fuel : Nat} {vertex : Vertex}
    {search : Search Vertex} (sound : search.Sound next) (leads : search.LeadsTo next vertex)
    (onPath : search.path ⊆ inner) (enough : inner.length + 2 ≤ fuel + search.path.length) :
    visit next fuel vertex search ≠ none := by
  have short := sound.distinct.length_le_of_subset onPath
  induction fuel generalizing vertex search with
  | zero => omega
  | succ fuel ih =>
      rw [visit]
      split
      · exact Option.some_ne_none _
      · exact Option.some_ne_none _
      next fresh =>
        have entered := sound.enter fresh leads
        have inside : visitEach (visit next fuel) (next vertex) (search.enter vertex) ≠ none := by
          cases successors : next vertex with
          | nil => exact Option.some_ne_none _
          | cons first rest =>
              have inner' : search.path ++ [vertex] ⊆ inner := by
                apply List.append_subset.mpr
                constructor
                · exact onPath
                · intro other member
                  rw [List.mem_singleton.mp member]
                  apply leading
                  rw [successors]
                  exact List.cons_ne_nil first rest
              have leaves : ∀ successor ∈ first :: rest,
                  (search.enter vertex).LeadsTo next successor := by
                intro successor edge last isLast
                rw [Search.enter, List.getLast?_concat, Option.mem_some_iff] at isLast
                rw [← isLast, Edge, successors]
                exact edge
              apply visitEach_returns _ _ entered (Eq.refl (search.path ++ [vertex])) leaves
              · exact fun _ _ _ _ sound leads visited => visit_explored sound leads visited
              · intro successor edge other otherSound same
                apply ih otherSound
                · intro last isLast
                  rw [same] at isLast
                  exact leaves successor edge last isLast
                · rw [same]
                  exact inner'
                · rw [same, List.length_append, List.length_singleton]
                  omega
                · rw [same]
                  exact entered.distinct.length_le_of_subset inner'
        split
        · exact Option.some_ne_none _
        · exact inside

omit [DecidableEq Vertex] in
theorem visitEach_mono {less more : Vertex → Search Vertex → Found Vertex}
    {vertices : List Vertex} {search : Search Vertex}
    {found : Option (List Vertex) × Search Vertex}
    (extends' : ∀ vertex search found, less vertex search = some found →
      more vertex search = some found)
    (visited : visitEach less vertices search = some found) :
    visitEach more vertices search = some found := by
  induction vertices generalizing search with
  | nil => exact visited
  | cons vertex rest ih =>
      rw [visitEach] at visited ⊢
      cases answered : less vertex search with
      | none =>
          rw [answered] at visited
          cases visited
      | some result =>
          rw [answered] at visited
          rw [extends' vertex search result answered]
          obtain ⟨cycle, after⟩ := result
          cases cycle with
          | none => exact ih visited
          | some cycle => exact visited

/-- More fuel finds the same. -/
theorem visit_mono {next : Vertex → List Vertex} {fuel : Nat} {vertex : Vertex}
    {search : Search Vertex} {found : Option (List Vertex) × Search Vertex}
    (visited : visit next fuel vertex search = some found) :
    visit next (fuel + 1) vertex search = some found := by
  induction fuel generalizing vertex search found with
  | zero => cases visited
  | succ fuel ih =>
      rw [visit] at visited ⊢
      cases seen : search.state vertex with
      | some mark =>
          rw [seen] at visited
          cases mark with
          | visiting => exact visited
          | done => exact visited
      | none =>
          rw [seen] at visited
          simp only at visited ⊢
          cases inside : visitEach (visit next fuel) (next vertex) (search.enter vertex) with
          | none =>
              rw [inside] at visited
              cases visited
          | some result =>
              rw [inside] at visited
              rw [visitEach_mono (fun _ _ _ answered => ih answered) inside]
              exact visited

/-! ### What is found -/

section Found

variable {next : Vertex → List Vertex} {fuel : Nat} {roots inner : List Vertex}

theorem cycleFrom_returns (leading : ∀ vertex, next vertex ≠ [] → vertex ∈ inner)
    (enough : inner.length + 2 ≤ fuel) : cycleFrom next fuel roots ≠ none := by
  rw [cycleFrom, ne_eq, Option.map_eq_none_iff]
  apply visitEach_returns _ _ (Search.empty_sound next) (Eq.refl [])
  · exact fun _ _ _ isLast => by cases isLast
  · exact fun _ _ _ _ sound leads visited => visit_explored sound leads visited
  · intro vertex _ search sound atRoot
    apply visit_returns leading sound
    · intro last isLast
      rw [atRoot] at isLast
      cases isLast
    · rw [atRoot]
      exact List.nil_subset inner
    · omega

theorem cycleFrom_mono {more : Nat} {found : Option (List Vertex)} (larger : fuel ≤ more)
    (searched : cycleFrom next fuel roots = some found) :
    cycleFrom next more roots = some found := by
  induction larger with
  | refl => exact searched
  | step _ ih =>
      obtain ⟨result, visited, same⟩ := Option.map_eq_some_iff.mp ih
      rw [cycleFrom, visitEach_mono (fun _ _ _ answered => visit_mono answered) visited,
        Option.map_some, same]

theorem cycleFrom_explored {found : Option (List Vertex)}
    (searched : cycleFrom next fuel roots = some found) :
    ∃ after, Explored next .empty roots (found, after) := by
  obtain ⟨⟨result, after⟩, visited, rfl⟩ := Option.map_eq_some_iff.mp searched
  refine ⟨after, visitEach_explored ?_ (Search.empty_sound next) ?_ visited⟩
  · exact fun _ _ _ _ sound leads visited => visit_explored sound leads visited
  · exact fun _ _ _ isLast => by cases isLast

theorem cycleFrom_isCycle {cycle : List Vertex}
    (searched : cycleFrom next fuel roots = some (some cycle)) : IsCycle next cycle := by
  obtain ⟨_, isCycle⟩ := cycleFrom_explored searched
  exact isCycle

/-- Where no cycle is met, no endless walk starts at a root. -/
theorem cycleFrom_grounded (searched : cycleFrom next fuel roots = some none)
    {vertex : Vertex} (root : vertex ∈ roots) : Grounded next vertex := by
  obtain ⟨after, sound, _, _, done⟩ := cycleFrom_explored searched
  exact sound.grounded vertex (done vertex root)

/-- Searched from every vertex that leads anywhere, nothing is found exactly on an
acyclic graph. -/
theorem cycleFrom_none_iff (leading : ∀ vertex, next vertex ≠ [] → vertex ∈ roots)
    (enough : roots.length + 2 ≤ fuel) :
    cycleFrom next fuel roots = some none ↔ Acyclic next := by
  constructor
  · intro searched vertex cyclic
    obtain ⟨successor, edge, _⟩ := Relation.TransGen.head'_iff.mp cyclic
    have root : vertex ∈ roots := leading vertex (List.ne_nil_of_mem edge)
    exact (cycleFrom_grounded searched root).not_cyclic cyclic
  · intro acyclic
    cases searched : cycleFrom next fuel roots with
    | none => exact absurd searched (cycleFrom_returns leading enough)
    | some found =>
        cases found with
        | none => rfl
        | some cycle => exact absurd acyclic (cycleFrom_isCycle searched).not_acyclic

end Found

/-! ### A search that carries its trail -/

/-- A cycle, or the vertices that are done; none is out of fuel. -/
abbrev TrailFound (Vertex : Type) := Option (Option (List Vertex) × List Vertex)

def trailEach (visit : Vertex → List Vertex → TrailFound Vertex) :
    List Vertex → List Vertex → TrailFound Vertex
  | [], done => some (none, done)
  | vertex :: rest, done =>
      match visit vertex done with
      | some (none, after) => trailEach visit rest after
      | stopped => stopped

/-- The search with the trail handed down and the done vertices handed on. -/
def visitTrail (next : Vertex → List Vertex) :
    Nat → Vertex → List Vertex → List Vertex → TrailFound Vertex
  | 0, _, _, _ => none
  | fuel + 1, vertex, trail, done =>
      if vertex ∈ trail then some (some (trail.drop (trail.idxOf vertex) ++ [vertex]), done)
      else if vertex ∈ done then some (none, done)
      else
        match trailEach (fun successor => visitTrail next fuel successor (trail ++ [vertex]))
            (next vertex) done with
        | some (none, after) => some (none, after ++ [vertex])
        | stopped => stopped

/-- The marks of a search as a trail and the vertices that are done. -/
structure Search.Follows (search : Search Vertex) (trail done : List Vertex) : Prop where
  path : search.path = trail
  visiting : ∀ vertex, search.state vertex = some .visiting ↔ vertex ∈ trail
  done : ∀ vertex, search.state vertex = some .done ↔ vertex ∈ done ∧ vertex ∉ trail

inductive SameFound (trail : List Vertex) : Found Vertex → TrailFound Vertex → Prop
  | spent : SameFound trail none none
  | cycle (cycle : List Vertex) (search : Search Vertex) (done : List Vertex) :
      SameFound trail (some (some cycle, search)) (some (some cycle, done))
  | through {search : Search Vertex} {done : List Vertex} (follows : search.Follows trail done) :
      SameFound trail (some (none, search)) (some (none, done))

omit [DecidableEq Vertex] in
theorem trailEach_same {visitor : Vertex → Search Vertex → Found Vertex}
    {trailVisitor : Vertex → List Vertex → TrailFound Vertex} {trail : List Vertex}
    (each : ∀ vertex search done, search.Follows trail done →
      SameFound trail (visitor vertex search) (trailVisitor vertex done))
    {vertices : List Vertex} {search : Search Vertex} {done : List Vertex}
    (follows : search.Follows trail done) :
    SameFound trail (visitEach visitor vertices search) (trailEach trailVisitor vertices done) := by
  induction vertices generalizing search done with
  | nil => exact .through follows
  | cons vertex rest ih =>
      have same := each vertex search done follows
      rw [visitEach, trailEach]
      generalize visitor vertex search = found at same ⊢
      generalize trailVisitor vertex done = trailFound at same ⊢
      cases same with
      | spent => exact .spent
      | cycle cycle after rest => exact .cycle cycle after rest
      | through after => exact ih after

theorem Search.Follows.enter {search : Search Vertex} {trail done : List Vertex} {vertex : Vertex}
    (follows : search.Follows trail done) (fresh : vertex ∉ done) :
    (search.enter vertex).Follows (trail ++ [vertex]) done where
  path := by rw [Search.enter, follows.path]
  visiting other := by
    rw [List.mem_append, List.mem_singleton]
    by_cases same : other = vertex
    · simp [Search.enter, same]
    · rw [Search.enter_other same, follows.visiting]
      simp [same]
  done other := by
    rw [List.mem_append, List.mem_singleton]
    by_cases same : other = vertex
    · simp [Search.enter, same, fresh]
    · rw [Search.enter_other same, follows.done]
      simp [same]

theorem Search.Follows.leave {search : Search Vertex} {trail done : List Vertex} {vertex : Vertex}
    (follows : search.Follows (trail ++ [vertex]) done) (fresh : vertex ∉ trail) :
    (search.leave vertex).Follows trail (done ++ [vertex]) where
  path := by rw [Search.leave, follows.path, List.dropLast_concat]
  visiting other := by
    by_cases same : other = vertex
    · rw [same, search.leave_self]
      simp [fresh]
    · rw [Search.leave_other same, follows.visiting]
      simp [same]
  done other := by
    by_cases same : other = vertex
    · rw [same, search.leave_self]
      simp [fresh]
    · rw [Search.leave_other same, follows.done]
      simp [same]

/-- Both searches find the same. -/
theorem visitTrail_same (next : Vertex → List Vertex) (fuel : Nat) {vertex : Vertex}
    {search : Search Vertex} {trail done : List Vertex} (follows : search.Follows trail done) :
    SameFound trail (visit next fuel vertex search) (visitTrail next fuel vertex trail done) := by
  induction fuel generalizing vertex search trail done with
  | zero => exact .spent
  | succ fuel ih =>
      rw [visit, visitTrail]
      by_cases onTrail : vertex ∈ trail
      · rw [(follows.visiting vertex).mpr onTrail, if_pos onTrail, follows.path]
        exact .cycle _ search done
      · rw [if_neg onTrail]
        by_cases isDone : vertex ∈ done
        · rw [(follows.done vertex).mpr ⟨isDone, onTrail⟩, if_pos isDone]
          exact .through follows
        · have unmarked : search.state vertex = none := by
            cases mark : search.state vertex with
            | none => rfl
            | some mark' =>
                cases mark' with
                | visiting => exact absurd ((follows.visiting vertex).mp mark) onTrail
                | done => exact absurd ((follows.done vertex).mp mark).1 isDone
          rw [unmarked, if_neg isDone]
          have each (successor : Vertex) (after : Search Vertex) (rest : List Vertex)
              (afterFollows : after.Follows (trail ++ [vertex]) rest) :
              SameFound (trail ++ [vertex]) (visit next fuel successor after)
                (visitTrail next fuel successor (trail ++ [vertex]) rest) :=
            ih afterFollows
          have same := @trailEach_same Vertex _ _ _ each (next vertex) _ _ (follows.enter isDone)
          simp only
          generalize visitEach (visit next fuel) (next vertex) (search.enter vertex) = found
            at same ⊢
          generalize trailEach (fun successor => visitTrail next fuel successor (trail ++ [vertex]))
            (next vertex) done = trailFound at same ⊢
          cases same with
          | spent => exact .spent
          | cycle cycle after rest => exact .cycle cycle after rest
          | through after => exact .through (after.leave onTrail)

/-- The first cycle met from the roots in order, by the trail. -/
def cycleByTrail (next : Vertex → List Vertex) (fuel : Nat) (roots : List Vertex) :
    Option (Option (List Vertex)) :=
  (trailEach (fun vertex => visitTrail next fuel vertex []) roots []).map (·.1)

theorem cycleByTrail_eq (next : Vertex → List Vertex) (fuel : Nat) (roots : List Vertex) :
    cycleByTrail next fuel roots = cycleFrom next fuel roots := by
  have start : (Search.empty : Search Vertex).Follows [] [] := by
    constructor
    · rfl
    · simp [Search.empty]
    · simp [Search.empty]
  have each (vertex : Vertex) (search : Search Vertex) (done : List Vertex)
      (follows : search.Follows [] done) :
      SameFound [] (visit next fuel vertex search) (visitTrail next fuel vertex [] done) :=
    visitTrail_same next fuel follows
  have same := @trailEach_same Vertex _ _ _ each roots _ _ start
  rw [cycleByTrail, cycleFrom]
  generalize visitEach (visit next fuel) roots Search.empty = found at same ⊢
  generalize trailEach (fun vertex => visitTrail next fuel vertex []) roots [] = trailFound
    at same ⊢
  cases same with
  | spent => rfl
  | cycle cycle search done => rfl
  | through follows => rfl

end DepthFirst
