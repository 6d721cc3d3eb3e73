import MergedMining.Json.Basic

/-! Values with named fields. A record is given either by an object or by an array of its fields in
their order. All fields are read; of several faults the one that comes first is reported: a bad value
before a missing one, bad values in the order of the array or of the keys, missing ones in the order
of the record. -/
namespace MergedMining

class ToJson (α : Type) where
  toJson : α → Json

class FromJson (α : Type) where
  fromJson : Json → Except Json.Error α

export ToJson (toJson)
export FromJson (fromJson)

namespace Json

inductive Fault where
  | bad (place : Nat) (error : Error)
  | missing (name : String)

def Fault.earlier : Fault → Fault → Fault
  | bad i e, bad j f => if j < i then bad j f else bad i e
  | bad i e, missing _ => bad i e
  | missing _, bad j f => bad j f
  | missing name, missing _ => missing name

inductive Checked (α : Type) where
  | valid (value : α)
  | faulty (fault : Fault)

namespace Checked

variable {α β : Type}

protected def seq : Checked (α → β) → Checked α → Checked β
  | valid f, valid a => valid (f a)
  | valid _, faulty e => faulty e
  | faulty e, valid _ => faulty e
  | faulty e, faulty f => faulty (e.earlier f)

instance : Applicative Checked where
  pure := valid
  seq f a := Checked.seq f (a ())

end Checked

/-- The form in which a record is given. -/
inductive Given where
  | byName (fields : List (String × Json))
  | inOrder (items : List Json)

structure Fields where
  names : List String
  given : Given

namespace Fields

variable {α : Type}

def get? (f : Fields) (name : String) : Option Json :=
  match f.given with
  | .byName fields => fields.lookup name
  | .inOrder items => (f.names.idxOf? name).bind fun i => items[i]?

/-- Where the field comes when the given form is gone through: an object by the order of its keys. -/
def place (f : Fields) (name : String) : Nat :=
  match f.given with
  | .byName _ => f.names.countP fun other => other < name
  | .inOrder _ => f.names.idxOf name

def check (f : Fields) (name : String) (read : Json → Except Error α) (j : Json) : Checked α :=
  match read j with
  | .ok a => .valid a
  | .error e => .faulty (.bad (f.place name) e)

def required [FromJson α] (f : Fields) (name : String) : Checked α :=
  match f.get? name with
  | some j => f.check name fromJson j
  | none => .faulty (.missing name)

/-- A field with a form of its own. -/
def requiredAs (f : Fields) (name : String) (read : Json → Except Error α) : Checked α :=
  match f.get? name with
  | some j => f.check name read j
  | none => .faulty (.missing name)

def optional [FromJson α] (f : Fields) (name : String) (default : α) : Checked α :=
  match f.get? name with
  | some j => f.check name fromJson j
  | none => .valid default

def readNullable [FromJson α] : Json → Except Error (Option α)
  | null => .ok none
  | j => (fromJson j).map some

/-- May be null, and may be left out of an object but not of an array. -/
def nullable [FromJson α] (f : Fields) (name : String) : Checked (Option α) :=
  match f.get? name, f.given with
  | some j, _ => f.check name readNullable j
  | none, .byName _ => .valid none
  | none, .inOrder _ => .faulty (.missing name)

end Fields

def readRecord {α : Type} (name : String) (names : List String) (build : Fields → Checked α) :
    Json → Except Error α
  | object fields =>
    match build ⟨names, .byName fields⟩ with
    | .valid a => .ok a
    | .faulty (.bad _ e) => .error e
    | .faulty (.missing field) => .error (.missingField field)
  | array items =>
    match build ⟨names, .inOrder items⟩ with
    | .valid a =>
      if items.length ≤ names.length then .ok a
      else .error (.invalidLength items.length "fewer elements in array")
    | .faulty (.bad _ e) => .error e
    | .faulty (.missing _) =>
      .error (.invalidLength items.length s!"struct {name} with {names.length} elements")
  | j => .error (.invalidType j s!"struct {name}")

end Json

end MergedMining
