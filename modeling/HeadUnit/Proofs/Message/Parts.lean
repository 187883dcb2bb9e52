import HeadUnit.Message
import HeadUnit.Proofs.Container.Writes
import HeadUnit.Proofs.Value.Paths
import HeadUnit.Proofs.WireType.Lawful

/-!
# Parts of messages

What a message holds is read part by part: the members of its layout or the fields of its
registry, the members of a record among them, and so on. A part stands at one path of keys in the
parameters, and what is read of it depends on nothing but the value at the end of this path.

## Main definitions

* `Layout.Member`, `Body.Part` — what can be read of a layout and of a message.
* `Body.Part.path` — where a part stands at a version.
* `Body.keys` — the keys of the outermost parts.

## Main statements

* `Body.LawfulAt.nodup_keys` — the outermost parts have keys of their own.
* `Body.Part.read_ofBody`, `Body.Part.read_ofJson` — a part is the datum at the end of its path.
* `Body.Part.read_ofJson_eq` — two trees that agree there give the same.
* `WireType.decode_list_append` — lists are read item by item.
-/

namespace HeadUnit

variable {v : Version} {t : WireType}

/-! ## Members of layouts -/

/-- A member of a layout: its place among the others. -/
inductive Layout.Member : Layout → WireType → Type where
  | head {label : String} {handle : Handle} {t : WireType} {rest : Layout} :
      Member (.cons label handle t rest) t
  | tail {label : String} {handle : Handle} {type t : WireType} {rest : Layout}
      (m : Member rest t) : Member (.cons label handle type rest) t

namespace Layout.Member

variable {l : Layout}

def key (v : Version) : {l : Layout} → l.Member t → String
  | .cons _ handle _ _, .head => handle.key v
  | .cons .., .tail m => m.key v

/-- The datum of the member, or nothing. -/
def get : {l : Layout} → l.Member t → l.Carrier → Option t.Carrier
  | .cons .., .head, (datum, _) => datum
  | .cons .., .tail m, (_, others) => m.get others

theorem get_decode (m : l.Member t) (v : Version) (p : Params) :
    m.get (l.decode v p) = (p.get? (m.key v)).bind (t.decode v) := by
  induction m with
  | head => rfl
  | tail _ ih => exact ih

theorem key_mem_keys (m : l.Member t) (v : Version) : m.key v ∈ l.keys v := by
  induction m with
  | head => exact List.mem_cons_self
  | tail _ ih => exact List.mem_cons_of_mem _ ih

end Layout.Member

theorem Layout.LawfulAt.nodup_keys : ∀ {l : Layout}, l.LawfulAt v → (l.keys v).Nodup
  | .nil, _ => List.nodup_nil
  | .cons .., h => List.nodup_cons.2 ⟨h.1.1, Layout.LawfulAt.nodup_keys h.2⟩

/-! ## Parts of messages -/

namespace Body

variable {body : Body}

/-- The keys of the outermost parts at `v`. -/
def keys (v : Version) : Body → List String
  | .fixed layout => layout.keys v
  | .registered registry => registry.entries.map (·.key v)

/-- The layout is lawful at `v`, or the registry valid. -/
def LawfulAt (v : Version) : Body → Prop
  | .fixed layout => layout.LawfulAt v
  | .registered registry => registry.Valid

theorem LawfulAt.nodup_keys (h : body.LawfulAt v) : (body.keys v).Nodup := by
  cases body with
  | fixed layout => exact Layout.LawfulAt.nodup_keys h
  | registered registry => exact h.keys v

/-- What can be read of a message: a member of its layout, a field of its registry, or a member
of a part that is a record. -/
inductive Part : Body → WireType → Type where
  | member {layout : Layout} {t : WireType} (m : layout.Member t) : Part (.fixed layout) t
  | field {registry : Registry} {e : Entry} (h : e ∈ registry.entries) :
      Part (.registered registry) e.type
  | nested {body : Body} {name : String} {layout : Layout} {t : WireType}
      (outer : Part body (.record name layout)) (m : layout.Member t) : Part body t

namespace Part

/-- The keys that lead to the part at `v`. -/
def path (v : Version) {body : Body} {t : WireType} : body.Part t → List String
  | .member m => [m.key v]
  | .field (e := e) _ => [e.key v]
  | .nested outer m => outer.path v ++ [m.key v]

/-- The datum of the part, or nothing. A part of a record that is missing is missing too. -/
def read {body : Body} {t : WireType} : body.Part t → body.Carrier → Option t.Carrier
  | .member m, members => m.get members
  | .field (e := e) _, container => container.get e.field
  | .nested outer m, message => (outer.read message).bind m.get

/-- The path begins with a key of the message. -/
theorem exists_path_eq_cons (part : body.Part t) (v : Version) :
    ∃ key ∈ body.keys v, ∃ rest, part.path v = key :: rest := by
  induction part with
  | member m => exact ⟨_, m.key_mem_keys v, [], rfl⟩
  | field h => exact ⟨_, List.mem_map_of_mem h, [], rfl⟩
  | nested outer m ih =>
    obtain ⟨key, hkey, rest, hpath⟩ := ih
    exact ⟨key, hkey, rest ++ [m.key v], by rw [path, hpath, List.cons_append]⟩

/-- What is read of a part is the datum that the value at the end of its path holds. -/
theorem read_ofBody (h : body.LawfulAt v) (part : body.Part t) (p : Params) :
    part.read (MessageType.ofBody v p body) =
      (p.toValue.at? (part.path v)).bind (t.decode v) := by
  induction part with
  | member m =>
    rw [path, Value.at?_singleton]
    exact m.get_decode v p
  | field he =>
    rw [path, Value.at?_singleton]
    exact Container.get_field h he
  | nested outer m ih =>
    rw [read, ih h, path, Value.at?_append]
    cases p.toValue.at? (outer.path v) with
    | none => rfl
    | some value =>
      rw [Option.bind_some, Option.bind_some, Value.at?_singleton]
      cases value with
      | struct members => exact m.get_decode v ⟨members⟩
      | _ => rfl

/-- Of a tree it is what the tree at the end of the path decodes to, null members being missing
ones. -/
theorem read_ofJson (h : body.LawfulAt v) (part : body.Part t) {a : Members Json}
    (ha : (Json.object a).WellFormed) :
    part.read (MessageType.ofBody v (.ofJson (.object a)) body) =
      ((Json.object a).withoutNulls.at? (part.path v)).bind fun json =>
        t.decode v (.ofJson json) := by
  rw [read_ofBody h]
  change ((Value.ofJson (.object a)).at? (part.path v)).bind (t.decode v) = _
  rw [Value.at?_ofJson _ ha, Option.bind_map]
  rfl

/-- What else stands in the tree does not count. -/
theorem read_ofJson_eq (h : body.LawfulAt v) (part : body.Part t) {a b : Members Json}
    (ha : (Json.object a).WellFormed) (hb : (Json.object b).WellFormed)
    (hsame : (Json.object a).withoutNulls.at? (part.path v) =
      (Json.object b).withoutNulls.at? (part.path v)) :
    part.read (MessageType.ofBody v (.ofJson (.object a)) body) =
      part.read (MessageType.ofBody v (.ofJson (.object b)) body) := by
  rw [part.read_ofJson h ha, part.read_ofJson h hb, hsame]

/-- Whatever becomes of one member of the parameters, a part that is not below it stays. -/
theorem read_ofJson_eq_of_ne (h : body.LawfulAt v) (part : body.Part t) {a b : Members Json}
    (ha : (Json.object a).WellFormed) (hb : (Json.object b).WellFormed) {key : String}
    (hkey : (part.path v).head? ≠ some key)
    (hsame : ∀ other, other ≠ key → Members.get? other a = Members.get? other b) :
    part.read (MessageType.ofBody v (.ofJson (.object a)) body) =
      part.read (MessageType.ofBody v (.ofJson (.object b)) body) := by
  obtain ⟨first, -, rest, hpath⟩ := part.exists_path_eq_cons v
  have hne : first ≠ key := by
    intro heq
    exact hkey (by rw [hpath, heq, List.head?_cons])
  apply part.read_ofJson_eq h ha hb
  rw [hpath]
  exact Json.at?_withoutNulls_eq ha.1 hb.1 (hsame first hne) rest

end Part

end Body

/-! ## Items of lists -/

namespace WireType

/-- The items of a list are read one by one, so lists in a row give data in a row, and an item
between them gives what it holds or nothing. -/
theorem decode_list_append (v : Version) (item : WireType) (xs ys : List Value) :
    ∃ before after, (list item).decode v (.list xs) = some before ∧
      (list item).decode v (.list ys) = some after ∧
      (list item).decode v (.list (xs ++ ys)) = some (before ++ after) ∧
      ∀ raw, (list item).decode v (.list (xs ++ raw :: ys)) =
        some (before ++ (item.decode v raw).toList ++ after) := by
  refine ⟨xs.filterMap (item.decode v), ys.filterMap (item.decode v), rfl, rfl, ?_, fun raw => ?_⟩
  · exact congrArg some List.filterMap_append
  · have hraw : (xs ++ raw :: ys).filterMap (item.decode v) =
        xs.filterMap (item.decode v) ++ (item.decode v raw).toList ++
          ys.filterMap (item.decode v) := by
      rw [List.filterMap_append, List.append_assoc, List.filterMap_cons]
      cases item.decode v raw <;> rfl
    exact congrArg some hraw

end WireType

end HeadUnit
