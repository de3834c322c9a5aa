import TerritoryBackend.Dict
import TerritoryBackend.PythonValues

/-!
# JSON codecs

A codec is an encoder into JSON documents together with a decoder that
recovers every encoded value.  The round trip is a field of the structure, so
a record's codec only has to compose the codecs of its fields.
-/

/-- An encoding of the values of a type that loses nothing. -/
structure JsonCodec (α : Type*) where
  encode : α → Json
  decode : Json → Option α
  decode_encode : ∀ value, decode (encode value) = some value

namespace JsonCodec

attribute [simp] decode_encode

variable {α : Type*}

def document : JsonCodec Json where
  encode value := value
  decode value := some value
  decode_encode _ := rfl

def text : JsonCodec String where
  encode value := .str value
  decode
    | .str value => some value
    | _ => none
  decode_encode _ := rfl

def int : JsonCodec Int where
  encode value := .int value
  decode
    | .int value => some value
    | _ => none
  decode_encode _ := rfl

def nat : JsonCodec Nat where
  encode value := .int value
  decode
    | .int (.ofNat value) => some value
    | _ => none
  decode_encode _ := rfl

def float : JsonCodec ℚ where
  encode value := .float value
  decode
    | .float value => some value
    | _ => none
  decode_encode _ := rfl

/-- `None` is encoded as `null`, which no encoded value may be. -/
def nullable (codec : JsonCodec α) (notNull : ∀ value, codec.encode value ≠ .null) :
    JsonCodec (Option α) where
  encode
    | none => .null
    | some value => codec.encode value
  decode
    | .null => some none
    | document => (codec.decode document).map some
  decode_encode value := by
    cases value with
    | none => rfl
    | some value =>
        have notNull := notNull value
        simp only [decode_encode, Option.map_some]

def decodeItems (codec : JsonCodec α) : List Json → Option (List α)
  | [] => some []
  | item :: items => do
      let value ← codec.decode item
      let values ← decodeItems codec items
      pure (value :: values)

theorem decodeItems_encode (codec : JsonCodec α) (values : List α) :
    codec.decodeItems (values.map codec.encode) = some values := by
  induction values with
  | nil => rfl
  | cons value values ih => simp [decodeItems, ih]

def list (codec : JsonCodec α) : JsonCodec (List α) where
  encode values := .arr (values.map codec.encode)
  decode
    | .arr items => codec.decodeItems items
    | _ => none
  decode_encode := codec.decodeItems_encode

def decodeMembers (codec : JsonCodec α) : List (String × Json) → Option (Dict String α)
  | [] => some ∅
  | (key, member) :: members => do
      let value ← codec.decode member
      let dict ← decodeMembers codec members
      pure (dict.insert key value)

def encodeMembers (codec : JsonCodec α) (entries : List ((_ : String) × α)) :
    List (String × Json) :=
  entries.map fun entry => (entry.1, codec.encode entry.2)

theorem decodeMembers_encode (codec : JsonCodec α) (entries : List ((_ : String) × α))
    (nodup : entries.NodupKeys) :
    codec.decodeMembers (codec.encodeMembers entries) = some ⟨entries, nodup⟩ := by
  induction entries with
  | nil => rfl
  | cons entry entries ih =>
      obtain ⟨key, value⟩ := entry
      have tailNodup := (List.nodupKeys_cons.mp nodup).2
      have tail := ih tailNodup
      simp only [encodeMembers] at tail
      simp only [encodeMembers, List.map_cons, decodeMembers, decode_encode, tail,
        Option.bind_eq_bind, Option.bind_some, Option.pure_def]
      congr 1
      exact (AList.mk_cons_eq_insert ⟨key, value⟩ entries nodup).symm

/-- A dictionary with string keys is encoded as an object. -/
def dict (codec : JsonCodec α) : JsonCodec (Dict String α) where
  encode dict := .obj (codec.encodeMembers dict.entries)
  decode
    | .obj members => codec.decodeMembers members
    | _ => none
  decode_encode dict := codec.decodeMembers_encode dict.entries dict.nodupKeys

end JsonCodec

namespace Json

def member? (document : Json) (key : String) : Option Json :=
  match document with
  | .obj members => members.lookup key
  | _ => none

end Json
