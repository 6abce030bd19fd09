import Mathlib.Data.List.Basic

/-!
# Trees of JSON

Values made of arrays and objects over scalars of any type.  A map of the scalars carries a
tree from one such type to another.
-/

namespace Trees

universe u v w

inductive Tree (Leaf : Type u) where
  | leaf (leaf : Leaf)
  | array (items : List (Tree Leaf))
  | object (fields : List (String × Tree Leaf))

variable {Leaf : Type u} {Image : Type v}

namespace Tree

mutual

def map (convert : Leaf → Image) : Tree Leaf → Tree Image
  | leaf scalar => leaf (convert scalar)
  | array items => array (mapItems convert items)
  | object fields => object (mapFields convert fields)

def mapItems (convert : Leaf → Image) : List (Tree Leaf) → List (Tree Image)
  | [] => []
  | item :: rest => map convert item :: mapItems convert rest

def mapFields (convert : Leaf → Image) : List (String × Tree Leaf) → List (String × Tree Image)
  | [] => []
  | (name, value) :: rest => (name, map convert value) :: mapFields convert rest

end

mutual

def leaves : Tree Leaf → List Leaf
  | leaf scalar => [scalar]
  | array items => leavesOfItems items
  | object fields => leavesOfFields fields

def leavesOfItems : List (Tree Leaf) → List Leaf
  | [] => []
  | item :: rest => leaves item ++ leavesOfItems rest

def leavesOfFields : List (String × Tree Leaf) → List Leaf
  | [] => []
  | (_, value) :: rest => leaves value ++ leavesOfFields rest

end

variable {Other : Type w} (convert : Leaf → Image) (next : Image → Other)

mutual

theorem map_map : (tree : Tree Leaf) → (tree.map convert).map next = tree.map (next ∘ convert)
  | leaf scalar => by simp [map]
  | array items => by simp only [map, mapItems_mapItems items]
  | object fields => by simp only [map, mapFields_mapFields fields]

theorem mapItems_mapItems : (items : List (Tree Leaf)) →
    mapItems next (mapItems convert items) = mapItems (next ∘ convert) items
  | [] => rfl
  | item :: rest => by simp only [mapItems, map_map item, mapItems_mapItems rest]

theorem mapFields_mapFields : (fields : List (String × Tree Leaf)) →
    mapFields next (mapFields convert fields) = mapFields (next ∘ convert) fields
  | [] => rfl
  | (name, value) :: rest => by simp only [mapFields, map_map value, mapFields_mapFields rest]

end

variable {first second : Leaf → Image}

mutual

theorem map_eq_map_iff : (tree : Tree Leaf) →
    (tree.map first = tree.map second ↔ ∀ scalar ∈ tree.leaves, first scalar = second scalar)
  | leaf scalar => by simp [map, leaves]
  | array items => by simp [map, leaves, mapItems_eq_iff items]
  | object fields => by simp [map, leaves, mapFields_eq_iff fields]

theorem mapItems_eq_iff : (items : List (Tree Leaf)) → (mapItems first items = mapItems second items ↔
    ∀ scalar ∈ leavesOfItems items, first scalar = second scalar)
  | [] => by simp [mapItems, leavesOfItems]
  | item :: rest => by
    simp [mapItems, leavesOfItems, map_eq_map_iff item, mapItems_eq_iff rest, or_imp,
      forall_and]

theorem mapFields_eq_iff : (fields : List (String × Tree Leaf)) →
    (mapFields first fields = mapFields second fields ↔
      ∀ scalar ∈ leavesOfFields fields, first scalar = second scalar)
  | [] => by simp [mapFields, leavesOfFields]
  | (name, value) :: rest => by
    simp [mapFields, leavesOfFields, map_eq_map_iff value, mapFields_eq_iff rest, or_imp,
      forall_and]

end

end Tree

end Trees
