import ExprLang.Tree.Basic
import Mathlib.Data.List.Basic

-- Trees with all their numbers changed alike. Equality that takes both zeros for one
-- number is equality of what is left when zeros have lost their signs.

namespace ExprLang

-- Every number as it is, but of the two zeros the one without a sign.
def Double.unsignedZero (x : Double) : Double := if x.rank = 0 then ofRank false 0 else x

theorem Double.same_iff {x y : Double} : x.same y = true ↔ x.unsignedZero = y.unsignedZero := by
  obtain ⟨negative, rank, hrank⟩ := x
  obtain ⟨negative', rank', hrank'⟩ := y
  simp only [same, unsignedZero, ofRank, Bool.and_eq_true, Bool.or_eq_true, decide_eq_true_eq]
  by_cases hzero : rank = 0
  · by_cases hzero' : rank' = 0
    · simp [hzero, hzero']
    · simp [hzero, hzero', Ne.symm hzero']
  · by_cases hzero' : rank' = 0
    · simp [hzero, hzero']
    · simp [hzero, hzero', and_comm]

namespace Value

variable {f : Double → Double} {v w : Value}

def mapNumber (f : Double → Double) : Value → Value
  | absent => absent
  | text s => text s
  | number x => number (f x)

theorem mapNumber_id (v : Value) : v.mapNumber id = v := by cases v <;> rfl

-- A text is what it was, and nothing else becomes one.
theorem text?_mapNumber (v : Value) : (v.mapNumber f).text? = v.text? := by cases v <;> rfl

theorem eq_of_mapNumber_text {s : String} (h : (text s).mapNumber f = w.mapNumber f) :
    text s = w := by
  cases w <;> simp_all [mapNumber]

theorem same_iff : v.same w = true ↔
    v.mapNumber Double.unsignedZero = w.mapNumber Double.unsignedZero := by
  cases v <;> cases w <;> simp [same, mapNumber, Double.same_iff]

theorem isEqv_same_iff {values others : List Value} : values.isEqv others same = true ↔
    values.map (mapNumber Double.unsignedZero) = others.map (mapNumber Double.unsignedZero) := by
  induction values generalizing others with
  | nil => cases others <;> simp [List.isEqv]
  | cons v values ih => cases others <;> simp [List.isEqv, same_iff, ih]

end Value

namespace Prototype

def mapNumbers (f : Double → Double) (p : Prototype) : Prototype :=
  ⟨p.name.mapNumber f, p.parameters.map (Value.mapNumber f)⟩

theorem mapNumbers_id (p : Prototype) : p.mapNumbers id = p := by
  have hparameters : p.parameters.map (Value.mapNumber id) = p.parameters := by
    simp [show Value.mapNumber id = id from funext Value.mapNumber_id]
  rw [mapNumbers, Value.mapNumber_id, hparameters]

theorem same_iff {p q : Prototype} : p.same q = true ↔
    p.mapNumbers Double.unsignedZero = q.mapNumbers Double.unsignedZero := by
  simp [same, mapNumbers, Value.same_iff, Value.isEqv_same_iff]

end Prototype

namespace Node

mutual

def mapNumbers (f : Double → Double) : Node → Node
  | number v => number (v.mapNumber f)
  | var v => var (v.mapNumber f)
  | binary op left right => binary op (left.mapNumbers f) (right.mapNumbers f)
  | call callee arguments => call (callee.mapNumber f) (mapNumbersAll f arguments)
  | prototype p => prototype (p.mapNumbers f)
  | function head body => function (head.mapNumbers f) (body.mapNumbers f)

def mapNumbersAll (f : Double → Double) : List Node → List Node
  | [] => []
  | n :: rest => n.mapNumbers f :: mapNumbersAll f rest

end

theorem mapNumbersAll_eq_map (f : Double → Double) (nodes : List Node) :
    mapNumbersAll f nodes = nodes.map (mapNumbers f) := by
  induction nodes with
  | nil => rfl
  | cons n nodes ih => rw [mapNumbersAll, ih, List.map_cons]

mutual

theorem mapNumbers_id : (n : Node) → n.mapNumbers id = n
  | number v => by rw [mapNumbers, Value.mapNumber_id]
  | var v => by rw [mapNumbers, Value.mapNumber_id]
  | binary op left right => by rw [mapNumbers, left.mapNumbers_id, right.mapNumbers_id]
  | call callee arguments => by
    rw [mapNumbers, Value.mapNumber_id, mapNumbersAll_id arguments]
  | prototype p => by rw [mapNumbers, p.mapNumbers_id]
  | function head body => by rw [mapNumbers, head.mapNumbers_id, body.mapNumbers_id]

theorem mapNumbersAll_id : (nodes : List Node) → mapNumbersAll id nodes = nodes
  | [] => rfl
  | n :: rest => by rw [mapNumbersAll, n.mapNumbers_id, mapNumbersAll_id rest]

end

mutual

theorem same_iff : (m n : Node) → (m.same n = true ↔
    m.mapNumbers Double.unsignedZero = n.mapNumbers Double.unsignedZero)
  | number v, n => by cases n <;> simp [same, mapNumbers, Value.same_iff]
  | var v, n => by cases n <;> simp [same, mapNumbers, Value.same_iff]
  | prototype p, n => by cases n <;> simp [same, mapNumbers, Prototype.same_iff]
  | binary op left right, n => by
    cases n with
    | binary op' left' right' =>
      simp [same, mapNumbers, same_iff left left', same_iff right right', and_assoc]
    | _ => simp [same, mapNumbers]
  | call callee arguments, n => by
    cases n with
    | call callee' arguments' =>
      simp [same, mapNumbers, Value.same_iff, sameAll_iff arguments arguments']
    | _ => simp [same, mapNumbers]
  | function head body, n => by
    cases n with
    | function head' body' =>
      simp [same, mapNumbers, same_iff head head', same_iff body body']
    | _ => simp [same, mapNumbers]

theorem sameAll_iff : (nodes others : List Node) → (sameAll nodes others = true ↔
    mapNumbersAll Double.unsignedZero nodes = mapNumbersAll Double.unsignedZero others)
  | [], others => by cases others <;> simp [sameAll, mapNumbersAll]
  | n :: rest, others => by
    cases others with
    | nil => simp [sameAll, mapNumbersAll]
    | cons n' rest' => simp [sameAll, mapNumbersAll, same_iff n n', sameAll_iff rest rest']

end

end Node

namespace Definition

def mapNumbers (f : Double → Double) (d : Definition) : Definition :=
  ⟨d.prototype.mapNumbers f, d.body.mapNumbers f⟩

theorem mapNumbers_id (d : Definition) : d.mapNumbers id = d := by
  rw [mapNumbers, Prototype.mapNumbers_id, Node.mapNumbers_id]

theorem node_injective : Function.Injective node := by
  rintro ⟨prototype, body⟩ ⟨prototype', body'⟩ h
  simpa [node] using h

theorem sameAll_node_iff {definitions others : List Definition} :
    Node.sameAll (definitions.map node) (others.map node) = true ↔
      definitions.map (mapNumbers Double.unsignedZero) =
        others.map (mapNumbers Double.unsignedZero) := by
  have hmap : ∀ all : List Definition, Node.mapNumbersAll Double.unsignedZero (all.map node) =
      (all.map (mapNumbers Double.unsignedZero)).map node := by
    intro all
    rw [Node.mapNumbersAll_eq_map, List.map_map, List.map_map]
    rfl
  rw [Node.sameAll_iff, hmap, hmap]
  exact (List.map_injective_iff.mpr node_injective).eq_iff

end Definition

end ExprLang
