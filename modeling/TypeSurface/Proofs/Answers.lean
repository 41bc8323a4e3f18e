import TypeSurface.Description.Lines
import TypeSurface.Proofs.Traversal
import TypeSurface.TypeView

/-!
# Answers and descriptions

A view describes its type exactly when every question about it has an answer. What a description
holds is read off the answers (`exists_answers_of_describe`), and its first lines tell the identity of
the type (`exists_header_of_describe`).
-/

set_option autoImplicit false

namespace TypeSurface.TypeView

/-- The description of a view is made of the answers of the view. -/
theorem exists_answers_of_describe {view : TypeView} {description : Description}
    (h : view.describe = .ok description) :
    ∃ base interfaces genericParameters fields properties methods,
      view.base = .ok base ∧ view.interfaces = .ok interfaces ∧
      view.genericParameters = .ok genericParameters ∧ view.fields = .ok fields ∧
      view.properties = .ok properties ∧ view.methods = .ok methods ∧
      description = ⟨view.id.nsText, view.id.name, view.isInterface, TypeRef.spellingOrEmpty base,
        interfaces.map TypeRef.spelling, genericParameters,
        fields.map (·.map TypeRef.spellingOrEmpty), properties.map (·.map TypeRef.spellingOrEmpty),
        methods.map (·.map TypeRef.spellingOrEmpty)⟩ := by
  obtain ⟨base, hbase, h⟩ := bind_eq_ok_iff.1 h
  obtain ⟨interfaces, hinterfaces, h⟩ := bind_eq_ok_iff.1 h
  obtain ⟨genericParameters, hgenericParameters, h⟩ := bind_eq_ok_iff.1 h
  obtain ⟨fields, hfields, h⟩ := bind_eq_ok_iff.1 h
  obtain ⟨properties, hproperties, h⟩ := bind_eq_ok_iff.1 h
  obtain ⟨methods, hmethods, h⟩ := bind_eq_ok_iff.1 h
  exact ⟨base, interfaces, genericParameters, fields, properties, methods, hbase, hinterfaces,
    hgenericParameters, hfields, hproperties, hmethods, (Except.ok.inj h).symm⟩

/-- The lines of a description begin with the flattened name of the type, a flag and its package. -/
theorem exists_header_of_describe {view : TypeView} {description : Description}
    (h : view.describe = .ok description) :
    ∃ flag rest, description.lines
      = Naming.flattenArity view.id.name :: flag :: Naming.packagePath view.id.nsText :: rest := by
  obtain ⟨base, interfaces, genericParameters, fields, properties, methods, -, -, -, -, -, -, rfl⟩ :=
    exists_answers_of_describe h
  exact ⟨_, _, rfl⟩

end TypeSurface.TypeView
