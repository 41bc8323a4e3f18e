/-!
# Flag words

The bits of the attribute words of types, fields, methods and parameters that decide what is listed.
`isPublic_iff`, `isStatic_eq_false_iff` and `hasDefault_iff` read the checks of members and parameters as
equations under a mask.
-/

set_option autoImplicit false

namespace TypeSurface.Metadata

/-- A word of attribute bits. -/
abbrev Flags : Type := UInt32

namespace Flags

/-- All bits of the mask are set. -/
def has (flags mask : Flags) : Bool := flags &&& mask == mask

/-- Accessible to everyone: a field's or method's access bits are all but the lowest. -/
def isPublic (flags : Flags) : Bool := flags &&& 0x0007 == 0x0006

/-- A field or method of the type rather than of an instance. -/
def isStatic (flags : Flags) : Bool := flags.has 0x0010

/-- An interface rather than a class. -/
def isInterface (flags : Flags) : Bool := flags.has 0x0020

/-- A parameter that declares a default value. -/
def hasDefault (flags : Flags) : Bool := flags.has 0x1000

/-- Everyone can access what has all access bits but the lowest. -/
theorem isPublic_iff {flags : Flags} : flags.isPublic = true ↔ flags &&& 0x0007 = 0x0006 :=
  beq_iff_eq

/-- What is not static lacks the bit. -/
theorem isStatic_eq_false_iff {flags : Flags} :
    flags.isStatic = false ↔ flags &&& 0x0010 = 0 := by
  rw [isStatic, has, beq_eq_false_iff_ne]
  -- Under a mask of one bit a word is the mask or nothing.
  have hmask : flags &&& 0x0010 = 0x0010 ∨ flags &&& 0x0010 = 0 := by
    have hbit : flags.toBitVec &&& 16#32 = if flags.toBitVec.getLsbD 4 then 16#32 else 0#32 :=
      BitVec.and_twoPow flags.toBitVec 4
    split at hbit
    · exact .inl (UInt32.toBitVec_inj.1 hbit)
    · exact .inr (UInt32.toBitVec_inj.1 hbit)
  rcases hmask with hmask | hmask <;> simp [hmask]

/-- A default value is declared by its bit. -/
theorem hasDefault_iff {flags : Flags} : flags.hasDefault = true ↔ flags &&& 0x1000 = 0x1000 :=
  beq_iff_eq

end Flags

end TypeSurface.Metadata
