import ChangeNotification.Proofs.Text.Segment
import ChangeNotification.Vocabulary

/-! # Roles of attributes

The classes of the roles have different names, with the mark of the root namespace or without. So an
attribute has at most one role. -/

namespace ChangeNotification

namespace AttributeRole

theorem unrooted_className (role : AttributeRole) : unrooted role.className = role.className := by
  have hlead : ¬ ("global::".toList <+: Vocabulary.attributeNamespace.toList ∨
      Vocabulary.attributeNamespace.toList <+: "global::".toList) := by
    decide
  rw [unrooted, Text.withoutLead, className, String.append_assoc,
    Text.afterLead?_append_eq_none hlead]
  rfl

theorem mem_all (role : AttributeRole) : role ∈ all := by
  rcases role with _ | (_ | _) | (_ | _) | (_ | _) <;> simp [all]

theorem className_injective {role other : AttributeRole} (h : role.className = other.className) :
    role = other := by
  have hall : ∀ role ∈ all, ∀ other ∈ all, role.simpleName = other.simpleName → role = other := by
    decide
  rw [className, className] at h
  exact hall role role.mem_all other other.mem_all (String.append_right_inj _ |>.mp h)

end AttributeRole

namespace Attribute

variable {attr : Attribute} {role : AttributeRole}

theorem isOf_className_iff :
    attr.isOf role.className = true ↔ unrooted attr.className = role.className := by
  rw [isOf, role.unrooted_className, decide_eq_true_iff]

theorem isOf_of_role? (h : attr.role? = some role) : attr.isOf role.className = true := by
  rw [role?] at h
  have hclass := List.find?_some h
  exact hclass

theorem isOf_unique {other : AttributeRole} (h : attr.isOf role.className = true)
    (hother : attr.isOf other.className = true) : role = other :=
  AttributeRole.className_injective
    ((isOf_className_iff.mp h).symm.trans (isOf_className_iff.mp hother))

theorem role?_eq_some_iff : attr.role? = some role ↔ attr.isOf role.className = true := by
  constructor
  · exact isOf_of_role?
  · intro h
    have hsome : attr.role?.isSome = true := List.find?_isSome.mpr ⟨role, role.mem_all, h⟩
    obtain ⟨other, hother⟩ := Option.isSome_iff_exists.mp hsome
    rw [hother, isOf_unique (isOf_of_role? hother) h]

theorem role?_eq_none_iff :
    attr.role? = none ↔ ∀ role : AttributeRole, attr.isOf role.className = false := by
  simp only [Option.eq_none_iff_forall_ne_some, ne_eq, role?_eq_some_iff, Bool.not_eq_true]

end Attribute

end ChangeNotification
