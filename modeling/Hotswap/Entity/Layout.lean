/-!
# Entities and their storage

An entity is a value type whose fields are known by offset. A field may hold a whole other entity,
and then carries that entity's layout: this is how a patch entity says what it overlays. Two layouts
are the same only if they agree all the way down.
-/

namespace Hotswap.Entity

/-- The identity of a type, as far as it can be checked: name, size and alignment. -/
structure ValueType where
  name : String
  size : Nat
  align : Nat
deriving DecidableEq, Repr

/-- The type with one value. -/
def ValueType.unit : ValueType := ⟨"()", 0, 1⟩

mutual

/-- The storage of an entity. -/
structure Layout where
  /-- The entity itself; its name is the entity's key. -/
  type : ValueType
  /-- The fields in declaration order. -/
  fields : List Field

/-- A field of an entity. -/
structure Field where
  name : String
  /-- Bytes from the start of the entity. -/
  offset : Nat
  type : ValueType
  /-- The layout of the field, if it holds an entity. -/
  embedded : Option Layout

end

/-! ## Equality is decidable -/

mutual

def Layout.decEq : (a b : Layout) → Decidable (a = b)
  | ⟨t, fs⟩, ⟨u, gs⟩ =>
    if ht : t = u then
      match Field.decEqList fs gs with
      | isTrue h => isTrue (by rw [ht, h])
      | isFalse h => isFalse fun e => h (Layout.mk.inj e).2
    else isFalse fun e => ht (Layout.mk.inj e).1
termination_by structural a => a

def Field.decEqEmbedded : (a b : Option Layout) → Decidable (a = b)
  | none, none => isTrue rfl
  | some a, some b =>
    match Layout.decEq a b with
    | isTrue h => isTrue (by rw [h])
    | isFalse h => isFalse fun e => h (Option.some.inj e)
  | none, some _ => isFalse nofun
  | some _, none => isFalse nofun
termination_by structural a => a

def Field.decEq : (a b : Field) → Decidable (a = b)
  | ⟨n, o, t, e⟩, ⟨n', o', t', e'⟩ =>
    if h : n = n' ∧ o = o' ∧ t = t' then
      match Field.decEqEmbedded e e' with
      | isTrue he => isTrue (by rw [h.1, h.2.1, h.2.2, he])
      | isFalse he => isFalse fun q => he (Field.mk.inj q).2.2.2
    else
      isFalse fun q => h ⟨(Field.mk.inj q).1, (Field.mk.inj q).2.1, (Field.mk.inj q).2.2.1⟩
termination_by structural a => a

def Field.decEqList : (a b : List Field) → Decidable (a = b)
  | [], [] => isTrue rfl
  | f :: fs, g :: gs =>
    match Field.decEq f g, Field.decEqList fs gs with
    | isTrue h, isTrue h' => isTrue (by rw [h, h'])
    | isFalse h, _ => isFalse fun e => h (List.cons.inj e).1
    | _, isFalse h => isFalse fun e => h (List.cons.inj e).2
  | [], _ :: _ => isFalse nofun
  | _ :: _, [] => isFalse nofun
termination_by structural a => a

end

instance : DecidableEq Layout := Layout.decEq

instance : DecidableEq Field := Field.decEq

namespace Layout

/-- The key of the entity. -/
def key (layout : Layout) : String :=
  layout.type.name

/-- The field declared first. -/
def firstField (layout : Layout) : Option Field :=
  layout.fields.head?

/-! ## Building layouts -/

/-- An entity without fields. -/
def bare (type : ValueType) : Layout :=
  ⟨type, []⟩

/-- Appends a field that is no entity. -/
def field (layout : Layout) (name : String) (offset : Nat) (type : ValueType) : Layout :=
  { layout with fields := layout.fields ++ [⟨name, offset, type, none⟩] }

/-- Appends a field that holds the entity `inner`. -/
def embed (layout : Layout) (name : String) (offset : Nat) (inner : Layout) : Layout :=
  { layout with fields := layout.fields ++ [⟨name, offset, inner.type, some inner⟩] }

/-- The patch entity `type` that holds `base`, and nothing else, at `offset`. -/
def overlay (type : ValueType) (offset : Nat) (base : Layout) : Layout :=
  (bare type).embed "base" offset base

/-- The first entity held in a field, with its offset: what a patch entity overlays. -/
def base? (layout : Layout) : Option (Layout × Nat) :=
  layout.fields.findSome? fun f => f.embedded.map fun inner => (inner, f.offset)

/-- `patch` is the entity `base` and no more: the same size and alignment, with `base`
embedded at the front. -/
def IsOverlay (base patch : Layout) : Prop :=
  (∃ f, patch.firstField = some f ∧ f.offset = 0 ∧ f.embedded = some base)
    ∧ patch.type.size = base.type.size ∧ patch.type.align = base.type.align

end Layout

end Hotswap.Entity
