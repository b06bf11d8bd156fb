import IntPlatform.Library.Formats

namespace IntPlatform.Library.HeaderValidity

open Formats

/-- A packet-program header variable: none while the header is invalid. -/
abbrev Header (α : Type) := Option α

variable {α : Type}

/-- The fields of an invalid header read as zero. -/
def read [Inhabited α] (h : Header α) : α := h.getD default

/-- Writing to a field of an invalid header has no effect. -/
def write (h : Header α) (f : α → α) : Header α := h.map f

/-- Fields that were never written read as zero after the header becomes valid. -/
def setValid [Inhabited α] (h : Header α) : Header α := some (read h)

def setInvalid (_ : Header α) : Header α := none

def emit (c : Codec α) : Header α → List Byte
  | none => []
  | some a => c.encode a

@[simp] theorem read_some [Inhabited α] (a : α) : read (some a) = a := rfl
@[simp] theorem read_none [Inhabited α] : read (none : Header α) = default := rfl
@[simp] theorem write_some (a : α) (f : α → α) : write (some a) f = some (f a) := rfl
@[simp] theorem write_none (f : α → α) : write none f = none := rfl
@[simp] theorem setValid_some [Inhabited α] (a : α) : setValid (some a) = some a := rfl
@[simp] theorem setValid_none [Inhabited α] : setValid (none : Header α) = some default := rfl
@[simp] theorem setInvalid_eq (h : Header α) : setInvalid h = none := rfl
@[simp] theorem emit_some (c : Codec α) (a : α) : emit c (some a) = c.encode a := rfl
@[simp] theorem emit_none (c : Codec α) : emit c none = [] := rfl

end IntPlatform.Library.HeaderValidity
