import Mathlib.Data.List.Dedup
import Mathlib.Data.List.Perm.Subperm

/-!
# Worklists

A walk through a graph of finitely many vertices.  A vertex is taken from the worklist, and those
that it leads to are added unless they were found before.  The walk comes to its end, whatever
circles the graph has, and what it has found is what can be reached.
-/

namespace Worklists

universe u

structure Graph (Vertex : Type u) where
  vertices : List Vertex
  edges : Vertex → List Vertex
  edges_subset : ∀ vertex, edges vertex ⊆ vertices

namespace Graph

variable {Vertex : Type u} (graph : Graph Vertex)

def Leads (first second : Vertex) : Prop := second ∈ graph.edges first

def Reaches (start : List Vertex) (vertex : Vertex) : Prop :=
  ∃ first ∈ start, Relation.ReflTransGen graph.Leads first vertex

variable {graph} in
theorem Reaches.trans {start middle : List Vertex} {vertex : Vertex}
    (reaches : graph.Reaches middle vertex) (all : ∀ one ∈ middle, graph.Reaches start one) :
    graph.Reaches start vertex := by
  obtain ⟨one, mem, later⟩ := reaches
  obtain ⟨first, isStart, earlier⟩ := all one mem
  exact ⟨first, isStart, earlier.trans later⟩

variable [DecidableEq Vertex]

def fresh (found : List Vertex) (vertex : Vertex) : List Vertex :=
  ((graph.edges vertex).filter (· ∉ found)).dedup

def missing (found : List Vertex) : ℕ := (graph.vertices.dedup.filter (· ∉ found)).length

variable {graph} {found pending : List Vertex} {vertex other : Vertex}

theorem mem_fresh : other ∈ graph.fresh found vertex ↔ graph.Leads vertex other ∧ other ∉ found := by
  simp [fresh, Leads]

theorem missing_append_fresh :
    graph.missing (found ++ graph.fresh found vertex) + (graph.fresh found vertex).length ≤
      graph.missing found := by
  have nodup : (graph.vertices.dedup.filter (· ∉ found ++ graph.fresh found vertex) ++
      graph.fresh found vertex).Nodup := by
    rw [List.nodup_append]
    refine ⟨(List.nodup_dedup _).filter _, List.nodup_dedup _, ?_⟩
    rintro first firstMem _ secondMem rfl
    simp [secondMem] at firstMem
  have subset : graph.vertices.dedup.filter (· ∉ found ++ graph.fresh found vertex) ++
      graph.fresh found vertex ⊆ graph.vertices.dedup.filter (· ∉ found) := by
    intro one mem
    rw [List.mem_filter, List.mem_dedup, decide_eq_true_eq]
    rcases List.mem_append.mp mem with later | new
    · simp only [List.mem_filter, List.mem_dedup, List.mem_append, not_or,
        decide_eq_true_eq] at later
      exact ⟨later.1, later.2.1⟩
    · obtain ⟨leads, notFound⟩ := mem_fresh.mp new
      exact ⟨graph.edges_subset vertex leads, notFound⟩
  have shorter := (List.subperm_of_subset nodup subset).length_le
  rwa [List.length_append] at shorter

variable (graph)

def walk (found pending : List Vertex) : List Vertex :=
  match pending with
  | [] => found
  | vertex :: rest =>
    walk (found ++ graph.fresh found vertex) ((graph.fresh found vertex).reverse ++ rest)
termination_by 2 * graph.missing found + pending.length
decreasing_by
  have fewer := @missing_append_fresh _ graph _ found vertex
  simp only [List.length_append, List.length_reverse, List.length_cons]
  omega

variable {graph}

theorem nodup_walk (nodup : found.Nodup) : (graph.walk found pending).Nodup := by
  induction found, pending using walk.induct graph with
  | case1 found => rwa [walk]
  | case2 found vertex rest ih =>
    rw [walk]
    apply ih
    refine List.nodup_append.mpr ⟨nodup, List.nodup_dedup _, ?_⟩
    rintro first firstMem _ secondMem rfl
    exact (mem_fresh.mp secondMem).2 firstMem

theorem subset_walk : found ⊆ graph.walk found pending := by
  induction found, pending using walk.induct graph with
  | case1 found =>
    rw [walk]
    exact List.Subset.refl _
  | case2 found vertex rest ih =>
    rw [walk]
    exact List.Subset.trans (List.subset_append_left _ _) ih

theorem reaches_of_mem_walk (inside : pending ⊆ found) (mem : other ∈ graph.walk found pending) :
    graph.Reaches found other := by
  induction found, pending using walk.induct graph with
  | case1 found =>
    rw [walk] at mem
    exact ⟨other, mem, .refl⟩
  | case2 found vertex rest ih =>
    rw [walk] at mem
    have within : (graph.fresh found vertex).reverse ++ rest ⊆
        found ++ graph.fresh found vertex := by
      intro one isPending
      rcases List.mem_append.mp isPending with new | before
      · exact List.mem_append_right _ (List.mem_reverse.mp new)
      · exact List.mem_append_left _ (inside (List.mem_cons_of_mem _ before))
    apply (ih within mem).trans
    intro one isFound
    rcases List.mem_append.mp isFound with before | new
    · exact ⟨one, before, .refl⟩
    · exact ⟨vertex, inside List.mem_cons_self, .single (mem_fresh.mp new).1⟩

theorem closed_walk (closed : ∀ one ∈ found, one ∈ pending ∨ graph.edges one ⊆ found) :
    ∀ one ∈ graph.walk found pending, graph.edges one ⊆ graph.walk found pending := by
  induction found, pending using walk.induct graph with
  | case1 found =>
    intro one mem
    rw [walk] at mem ⊢
    exact (closed one mem).resolve_left List.not_mem_nil
  | case2 found vertex rest ih =>
    rw [walk]
    apply ih
    intro one mem
    rcases List.mem_append.mp mem with before | new
    · rcases closed one before with isPending | within
      · rcases List.mem_cons.mp isPending with rfl | later
        · right
          intro next leads
          by_cases known : next ∈ found
          · exact List.mem_append_left _ known
          · exact List.mem_append_right _ (mem_fresh.mpr ⟨leads, known⟩)
        · exact .inl (List.mem_append_right _ later)
      · exact .inr (List.Subset.trans within (List.subset_append_left _ _))
    · exact .inl (List.mem_append_left _ (List.mem_reverse.mpr new))

theorem mem_walk : vertex ∈ graph.walk found found ↔ graph.Reaches found vertex := by
  constructor
  · exact reaches_of_mem_walk (List.Subset.refl _)
  · rintro ⟨first, isStart, path⟩
    have closed := @closed_walk _ graph _ found found fun _ => .inl
    induction path with
    | refl => exact subset_walk isStart
    | tail _ leads ih => exact closed _ ih leads

end Graph

end Worklists
