import ChangeNotification.Proofs.Resolution.Defects
import ChangeNotification.Proofs.Resolution.Members
import Mathlib.Logic.Relation

/-! # What resolution recognises

Resolution knows attributes by their classes, each class by the order of its attributes, and redirects
by their order among all redirects. Whatever else is told about attributes does not count, nor does
the mark of the root namespace on a name. -/

namespace ChangeNotification

/-! ## Marked names -/

theorem unrooted_append (name : String) : unrooted ("global::" ++ name) = name := by
  rw [unrooted, Text.withoutLead, Text.afterLead?_eq_some_iff.mpr rfl]
  rfl

theorem unrooted_of_not_prefix {name : String} (h : ¬ "global::".toList <+: name.toList) :
    unrooted name = name := by
  have hnone : Text.afterLead? "global::" name = none := by
    refine Option.eq_none_iff_forall_ne_some.mpr fun rest hrest => h ?_
    rw [Text.afterLead?_eq_some_iff.mp hrest, String.toList_append]
    exact List.prefix_append _ _
  rw [unrooted, Text.withoutLead, hnone]
  rfl

/-! ## Attributes of the same sense -/

/-- Attributes of the same classes with the same arguments, however their classes are named. -/
structure Attribute.SameSense (attr other : Attribute) : Prop where
  isOf : ∀ className, other.isOf className = attr.isOf className
  constructorArguments : other.constructorArguments = attr.constructorArguments
  namedArguments : other.namedArguments = attr.namedArguments

namespace Attribute.SameSense

variable {attr other : Attribute}

theorem refl (attr : Attribute) : attr.SameSense attr :=
  ⟨fun _ => rfl, rfl, rfl⟩

theorem symm (h : attr.SameSense other) : other.SameSense attr :=
  ⟨fun className => (h.isOf className).symm, h.constructorArguments.symm, h.namedArguments.symm⟩

theorem rooted {attr : Attribute} (h : ¬ "global::".toList <+: attr.className.toList) :
    attr.SameSense { attr with className := "global::" ++ attr.className } := by
  refine ⟨fun className => ?_, rfl, rfl⟩
  rw [Attribute.isOf, Attribute.isOf, unrooted_append, unrooted_of_not_prefix h]

theorem isRedirect_eq (h : attr.SameSense other) : other.isRedirect = attr.isRedirect := by
  rw [isRedirect, isRedirect, h.isOf, h.isOf]

theorem redirects (h : attr.SameSense other) {redirect : EventRedirect}
    (hredirect : attr.Redirects redirect) : other.Redirects redirect := by
  refine ⟨(h.isOf _).trans hredirect.phase, ?_⟩
  rw [h.constructorArguments]
  exact hredirect.names

theorem filter {p : Attribute → Bool} (hp : ∀ {attr other}, SameSense attr other → p other = p attr)
    {attributes others : List Attribute} (h : List.Forall₂ SameSense attributes others) :
    List.Forall₂ SameSense (attributes.filter p) (others.filter p) := by
  have hiff : ∀ attr other : Attribute, attr.SameSense other → (p attr = true ↔ p other = true) := by
    intro attr other hattr
    rw [hp hattr]
  exact List.rel_filter hiff h

theorem forall₂_redirects {attributes others : List Attribute} {asked : List EventRedirect}
    (h : List.Forall₂ SameSense attributes others)
    (hasked : List.Forall₂ Attribute.Redirects attributes asked) :
    List.Forall₂ Attribute.Redirects others asked := by
  induction h generalizing asked with
  | nil => exact hasked
  | cons hattr _ ih =>
      obtain ⟨redirect, rest, hredirect, hrest, rfl⟩ := List.forall₂_cons_left_iff.mp hasked
      exact .cons (hattr.redirects hredirect) (ih hrest)

end Attribute.SameSense

/-! ## Equal descriptors -/

theorem PropertyDescriptor.eq_of_draft_eq {descriptor other : PropertyDescriptor}
    (h : descriptor.toPropertyDraft = other.toPropertyDraft) : descriptor = other := by
  cases descriptor
  cases other
  cases h
  rfl

/-- Drafts about the same property are equal as far as they have the same members. -/
theorem PropertyDraft.eq_of_members {draft other : PropertyDraft}
    (hsubject : draft.withoutMembers = other.withoutMembers)
    (hmembers : ∀ phase, draft.members phase = other.members phase)
    (hredirects : draft.redirects = other.redirects) : draft = other := by
  have hchanging : draft.changing = other.changing := hmembers .changing
  have hchanged : draft.changed = other.changed := hmembers .changed
  cases draft
  cases other
  cases hchanging
  cases hchanged
  cases hredirects
  cases hsubject
  rfl

/-! ## Facts of the same view -/

/-- Facts of which resolution sees the same: of the attributes those of each class, and the redirects
of both phases. -/
structure PropertyFacts.SameView (facts other : PropertyFacts) : Prop where
  name : other.name = facts.name
  definition : other.containingType.definition = facts.containingType.definition
  implements : ∀ interface,
    other.containingType.implements interface = facts.containingType.implements interface
  propertyType : other.propertyType = facts.propertyType
  defaultAccessibility : other.defaultAccessibility = facts.defaultAccessibility
  declarationSites : other.declarationSites = facts.declarationSites
  ofRole : ∀ role : AttributeRole, List.Forall₂ Attribute.SameSense
    (facts.attributes.filter (·.isOf role.className))
    (other.attributes.filter (·.isOf role.className))
  redirects : List.Forall₂ Attribute.SameSense (facts.attributes.filter Attribute.isRedirect)
    (other.attributes.filter Attribute.isRedirect)

namespace PropertyFacts.SameView

variable {facts other : PropertyFacts}

theorem symm (h : facts.SameView other) : other.SameView facts where
  name := h.name.symm
  definition := h.definition.symm
  implements interface := (h.implements interface).symm
  propertyType := h.propertyType.symm
  defaultAccessibility := h.defaultAccessibility.symm
  declarationSites := h.declarationSites.symm
  ofRole role := ((h.ofRole role).imp fun _ _ => Attribute.SameSense.symm).flip
  redirects := (h.redirects.imp fun _ _ => Attribute.SameSense.symm).flip

/-- Attributes that are the same one by one. -/
theorem of_attributes {attributes : List Attribute}
    (h : List.Forall₂ Attribute.SameSense facts.attributes attributes) :
    facts.SameView { facts with attributes } where
  name := rfl
  definition := rfl
  implements _ := rfl
  propertyType := rfl
  defaultAccessibility := rfl
  declarationSites := rfl
  ofRole _ := Attribute.SameSense.filter (fun hattr => hattr.isOf _) h
  redirects := Attribute.SameSense.filter Attribute.SameSense.isRedirect_eq h

/-- Attributes among which those of each class and the redirects are the same. -/
theorem of_filters {attributes : List Attribute}
    (hrole : ∀ role : AttributeRole, attributes.filter (·.isOf role.className) =
      facts.attributes.filter (·.isOf role.className))
    (hredirects : attributes.filter Attribute.isRedirect =
      facts.attributes.filter Attribute.isRedirect) :
    facts.SameView { facts with attributes } where
  name := rfl
  definition := rfl
  implements _ := rfl
  propertyType := rfl
  defaultAccessibility := rfl
  declarationSites := rfl
  ofRole role := by
    rw [hrole]
    exact List.forall₂_same.mpr fun attr _ => .refl attr
  redirects := by
    rw [hredirects]
    exact List.forall₂_same.mpr fun attr _ => .refl attr

theorem argumentsOf_eq (h : facts.SameView other) (role : AttributeRole) :
    other.argumentsOf role = facts.argumentsOf role := by
  have hrole := h.ofRole role
  rw [argumentsOf, argumentsOf]
  generalize facts.attributes.filter (·.isOf role.className) = attributes at hrole
  generalize other.attributes.filter (·.isOf role.className) = others at hrole
  induction hrole with
  | nil => rfl
  | cons hattr _ ih => rw [List.map_cons, List.map_cons, hattr.constructorArguments, ih]

theorem enabling (h : facts.SameView other) {enabling : Attribute}
    (henabling : facts.enablingAttribute? = some enabling) :
    ∃ seen, other.enablingAttribute? = some seen ∧ enabling.SameSense seen := by
  have hrole := h.ofRole .enable
  rw [enablingAttribute?, findAttribute?, ← List.head?_filter] at henabling ⊢
  generalize facts.attributes.filter (·.isOf (AttributeRole.className .enable)) = attributes
    at hrole henabling
  generalize other.attributes.filter (·.isOf (AttributeRole.className .enable)) = others at hrole ⊢
  cases hrole with
  | nil => cases henabling
  | cons hattr =>
      cases henabling
      exact ⟨_, rfl, hattr⟩

theorem isNotificationTarget_of (h : facts.SameView other)
    (htarget : facts.isNotificationTarget = true) : other.isNotificationTarget = true := by
  obtain ⟨enabling, henabling⟩ := Option.isSome_iff_exists.mp htarget
  obtain ⟨seen, hseen, -⟩ := h.enabling henabling
  exact Option.isSome_iff_exists.mpr ⟨seen, hseen⟩

theorem isWellFormed (h : facts.SameView other) (hwell : facts.IsWellFormed) :
    other.IsWellFormed := by
  have hseen {attr : Attribute} (hattr : attr ∈ other.attributes) {role : AttributeRole}
      (hclass : attr.isOf role.className = true) : ∃ told ∈ facts.attributes,
        told.isOf role.className = true ∧ told.constructorArguments = attr.constructorArguments := by
    have hmem := mem_argumentsOf_iff.mpr ⟨attr, hattr, hclass, rfl⟩
    rw [h.argumentsOf_eq] at hmem
    exact mem_argumentsOf_iff.mp hmem
  obtain ⟨enabling, only, henabling, honly⟩ := hwell.enabling
  obtain ⟨seen, hfound, hsense⟩ := h.enabling henabling
  refine ⟨h.name ▸ hwell.name, ⟨seen, only, hfound, hsense.namedArguments ▸ honly⟩,
    fun attr hattr => ⟨fun role hclass hrole => ?_, fun phase hclass => ?_⟩⟩
  · obtain ⟨told, htold, hclass, harguments⟩ := hseen hattr hclass
    exact harguments ▸ (hwell.attributes told htold).accessibility role hclass hrole
  · obtain ⟨told, htold, hclass, harguments⟩ := hseen hattr hclass
    exact harguments ▸ (hwell.attributes told htold).redirect phase hclass

theorem eq_of_resolve (h : facts.SameView other) {descriptor descriptor' : PropertyDescriptor}
    (hresolve : facts.resolve = .ok descriptor) (hother : other.resolve = .ok descriptor') :
    descriptor' = descriptor := by
  -- All parts of a descriptor are determined by what is seen: its subject, members and redirects.
  obtain ⟨enabling, henabling, honly, hplain⟩ := subject_of_resolve hresolve
  obtain ⟨enabling', henabling', honly', hplain'⟩ := subject_of_resolve hother
  have heq : descriptor'.eventArgsOnly = descriptor.eventArgsOnly := by
    obtain ⟨seen, hseen, hsense⟩ := h.enabling henabling
    cases hseen.symm.trans henabling'
    rw [hsense.namedArguments] at honly'
    exact honly'.unique honly
  have hmembers (phase : Phase) : descriptor'.members phase = descriptor.members phase :=
    (decides_of_resolve hother phase).unique (decides_of_resolve hresolve phase) h.implements
      h.defaultAccessibility (h.argumentsOf_eq _) (h.argumentsOf_eq _) (h.argumentsOf_eq _)
  have hredirects : descriptor'.redirects = descriptor.redirects := by
    have hunique : Relator.RightUnique Attribute.Redirects :=
      fun _ _ _ => Attribute.Redirects.unique
    refine List.right_unique_forall₂' hunique (redirects_of_resolve hother) ?_
    exact Attribute.SameSense.forall₂_redirects h.redirects (redirects_of_resolve hresolve)
  have hsubject : descriptor'.withoutMembers = descriptor.withoutMembers := by
    rw [hplain, hplain', heq, withoutMembers_plainDraft, withoutMembers_plainDraft]
    simp only [draft, settledNullability, h.definition, h.name, h.propertyType, h.declarationSites]
  exact PropertyDescriptor.eq_of_draft_eq
    (PropertyDraft.eq_of_members hsubject hmembers hredirects)

theorem resolve_of (h : facts.SameView other) {descriptor : PropertyDescriptor}
    (hresolve : facts.resolve = .ok descriptor) : other.resolve = .ok descriptor := by
  obtain ⟨descriptor', hother⟩ :=
    (h.isWellFormed (isWellFormed_of_resolve hresolve)).exists_resolve
  rw [hother, h.eq_of_resolve hresolve hother]

theorem resolve_alike (h : facts.SameView other) :
    other.isNotificationTarget = facts.isNotificationTarget ∧
    (∀ descriptor, other.resolve = .ok descriptor ↔ facts.resolve = .ok descriptor) ∧
    ((∃ error, other.resolve = .error error) ↔ ∃ error, facts.resolve = .error error) := by
  have hok (descriptor : PropertyDescriptor) :
      other.resolve = .ok descriptor ↔ facts.resolve = .ok descriptor :=
    ⟨h.symm.resolve_of, h.resolve_of⟩
  refine ⟨?_, hok, ?_⟩
  · exact Bool.eq_iff_iff.mpr ⟨h.symm.isNotificationTarget_of, h.isNotificationTarget_of⟩
  · simp only [exists_eq_error_iff, ne_eq, hok]

end PropertyFacts.SameView

/-! ## Retellings -/

namespace PropertyFacts

/-- Facts that are told in another way: with attributes in another order, though those of each class
and the redirects in the same one, with an attribute more or less that is not recognised, or with one
more name that has the mark of the root namespace. -/
inductive Retold (facts : PropertyFacts) : PropertyFacts → Prop
  | reordered {attributes : List Attribute} (hperm : attributes.Perm facts.attributes)
      (hrole : ∀ role : AttributeRole, attributes.filter (·.isOf role.className) =
        facts.attributes.filter (·.isOf role.className))
      (hredirects : attributes.filter Attribute.isRedirect =
        facts.attributes.filter Attribute.isRedirect) :
      Retold facts { facts with attributes }
  | inserted {before after : List Attribute} {attr : Attribute}
      (hsplit : facts.attributes = before ++ after)
      (hattr : ∀ role : AttributeRole, attr.isOf role.className = false) :
      Retold facts { facts with attributes := before ++ attr :: after }
  | removed {before after : List Attribute} {attr : Attribute}
      (hsplit : facts.attributes = before ++ attr :: after)
      (hattr : ∀ role : AttributeRole, attr.isOf role.className = false) :
      Retold facts { facts with attributes := before ++ after }
  | markedAttribute {before after : List Attribute} {attr : Attribute}
      (hsplit : facts.attributes = before ++ attr :: after)
      (hname : ¬ "global::".toList <+: attr.className.toList) :
      Retold facts { facts with
        attributes := before ++ { attr with className := "global::" ++ attr.className } :: after }
  | markedInterface {before after : List String} {name : String}
      (hsplit : facts.containingType.interfaces = before ++ name :: after)
      (hname : ¬ "global::".toList <+: name.toList) :
      Retold facts { facts with
        containingType := { facts.containingType with
          interfaces := before ++ ("global::" ++ name) :: after } }

/-- Neighbours that are not of one class and not both redirects change their places. -/
theorem Retold.swapped {facts : PropertyFacts} {before after : List Attribute}
    {attr next : Attribute} (hsplit : facts.attributes = before ++ attr :: next :: after)
    (hrole : ∀ role : AttributeRole,
      attr.isOf role.className = true → next.isOf role.className = false)
    (hredirect : attr.isRedirect = true → next.isRedirect = false) :
    Retold facts { facts with attributes := before ++ next :: attr :: after } := by
  have hfilter {p : Attribute → Bool} (hp : p attr = true → p next = false) :
      (before ++ next :: attr :: after).filter p = facts.attributes.filter p := by
    rw [hsplit, List.filter_append, List.filter_append]
    cases hattr : p attr with
    | false => simp [List.filter_cons, hattr]
    | true => simp [hattr, hp hattr]
  refine .reordered ?_ (fun role => hfilter (hrole role)) (hfilter hredirect)
  rw [hsplit]
  exact (List.Perm.swap attr next after).append_left before

/-- An attribute that is not recognised is nowhere seen. -/
theorem filter_append_cons_of_unrecognized {attr : Attribute}
    (hattr : ∀ role : AttributeRole, attr.isOf role.className = false)
    (before after : List Attribute) :
    (∀ role : AttributeRole, (before ++ attr :: after).filter (·.isOf role.className) =
      (before ++ after).filter (·.isOf role.className)) ∧
    (before ++ attr :: after).filter Attribute.isRedirect =
      (before ++ after).filter Attribute.isRedirect := by
  have hskip {p : Attribute → Bool} (hp : ¬ p attr = true) :
      (before ++ attr :: after).filter p = (before ++ after).filter p := by
    rw [List.filter_append, List.filter_append, List.filter_cons_of_neg hp]
  exact ⟨fun role => hskip (by simp [hattr]), hskip (by simp [Attribute.isRedirect, hattr])⟩

theorem implements_markedInterface {symbol : TypeSymbol} {before after : List String} {name : String}
    (hsplit : symbol.interfaces = before ++ name :: after)
    (hname : ¬ "global::".toList <+: name.toList) (interface : String) :
    { symbol with interfaces := before ++ ("global::" ++ name) :: after }.implements interface =
      symbol.implements interface := by
  simp only [TypeSymbol.implements, hsplit, List.any_append, List.any_cons, unrooted_append,
    unrooted_of_not_prefix hname]

theorem Retold.sameView {facts other : PropertyFacts} (h : facts.Retold other) :
    facts.SameView other := by
  cases h with
  | reordered _ hrole hredirects => exact .of_filters hrole hredirects
  | @inserted before after _ hsplit hattr =>
      have hskip := filter_append_cons_of_unrecognized hattr before after
      rw [← hsplit] at hskip
      exact .of_filters hskip.1 hskip.2
  | @removed before after _ hsplit hattr =>
      have hskip := filter_append_cons_of_unrecognized hattr before after
      rw [← hsplit] at hskip
      exact .of_filters (fun role => (hskip.1 role).symm) hskip.2.symm
  | @markedAttribute before after _ hsplit hname =>
      have hsame (attributes : List Attribute) :
          List.Forall₂ Attribute.SameSense attributes attributes :=
        List.forall₂_same.mpr fun attr _ => .refl attr
      refine .of_attributes ?_
      rw [hsplit]
      exact List.rel_append (hsame before) (.cons (.rooted hname) (hsame after))
  | @markedInterface before after name hsplit hname =>
      have hsame : facts.SameView { facts with attributes := facts.attributes } :=
        .of_filters (fun _ => rfl) rfl
      have hdefinition (symbol : TypeSymbol) (interfaces : List String) :
          { symbol with interfaces }.definition = symbol.definition := by
        cases symbol
        rfl
      exact { hsame with
        definition := hdefinition _ _
        implements := implements_markedInterface hsplit hname }

/-- Resolution gives the same of facts that are told in another way, however often, and it fails only
if it did before. -/
theorem resolve_of_retold {facts other : PropertyFacts}
    (h : Relation.ReflTransGen Retold facts other) :
    other.isNotificationTarget = facts.isNotificationTarget ∧
    (∀ descriptor, other.resolve = .ok descriptor ↔ facts.resolve = .ok descriptor) ∧
    ((∃ error, other.resolve = .error error) ↔ ∃ error, facts.resolve = .error error) := by
  induction h with
  | refl => exact ⟨rfl, fun _ => .rfl, .rfl⟩
  | tail _ hretold ih =>
      obtain ⟨htarget, hok, herror⟩ := hretold.sameView.resolve_alike
      obtain ⟨htarget', hok', herror'⟩ := ih
      exact ⟨htarget.trans htarget', fun descriptor => (hok descriptor).trans (hok' descriptor),
        herror.trans herror'⟩

/-- An observable property of a class that notifies. -/
def sampleTold : PropertyFacts :=
  { sampleObservable with
    containingType := { sampleObservable.containingType with
      interfaces := [Vocabulary.notifyInterface .changed] } }

/-- The same with its attributes in the other order, the enabling one and the interface by their
marked names, and in front an attribute that is not recognised. -/
def sampleRetold : PropertyFacts :=
  { sampleTold with
    attributes := [{ className := "System.ObsoleteAttribute" },
      { className := AttributeRole.className (.observable .changed)
        constructorArguments := [.text "Protected"] },
      { className := "global::" ++ AttributeRole.className .enable }]
    containingType := { sampleTold.containingType with
      interfaces := ["global::" ++ Vocabulary.notifyInterface .changed] } }

theorem resolve_of_retold_sampleRetold :
    Relation.ReflTransGen Retold sampleTold sampleRetold ∧
    sampleRetold.isNotificationTarget = sampleTold.isNotificationTarget ∧
    ∃ descriptor, sampleTold.resolve = .ok descriptor ∧ sampleRetold.resolve = .ok descriptor := by
  let enabling : Attribute := { className := AttributeRole.className .enable }
  let observing : Attribute :=
    { className := AttributeRole.className (.observable .changed)
      constructorArguments := [.text "Protected"] }
  let obsolete : Attribute := { className := "System.ObsoleteAttribute" }
  let swapped : PropertyFacts := { sampleTold with attributes := [observing, enabling] }
  let marked : PropertyFacts :=
    { sampleTold with
      attributes := [observing, { enabling with className := "global::" ++ enabling.className }] }
  let inserted : PropertyFacts := { marked with attributes := obsolete :: marked.attributes }
  have henabling : enabling.role? = some .enable := by decide
  have hobsolete : obsolete.role? = none := by decide
  have hswapped : sampleTold.Retold swapped := by
    have hsplit : sampleTold.attributes = [] ++ enabling :: observing :: [] := rfl
    refine .swapped hsplit (fun role hrole => ?_) fun hredirect => absurd hredirect (by decide)
    cases henabling.symm.trans (Attribute.role?_eq_some_iff.mpr hrole)
    decide
  have hmarked : swapped.Retold marked := by
    have hsplit : swapped.attributes = [observing] ++ enabling :: [] := rfl
    exact .markedAttribute hsplit (by decide)
  have hinserted : marked.Retold inserted :=
    .inserted (List.nil_append marked.attributes).symm (Attribute.role?_eq_none_iff.mp hobsolete)
  have hinterface : inserted.Retold sampleRetold := by
    have hsplit : inserted.containingType.interfaces =
      [] ++ Vocabulary.notifyInterface .changed :: [] := rfl
    exact .markedInterface hsplit (by decide)
  have hretold : Relation.ReflTransGen Retold sampleTold sampleRetold :=
    .tail (.tail (.tail (.single hswapped) hmarked) hinserted) hinterface
  obtain ⟨htarget, hok, -⟩ := resolve_of_retold hretold
  obtain ⟨descriptor, hdescriptor⟩ : ∃ descriptor, sampleTold.resolve = .ok descriptor := ⟨_, rfl⟩
  exact ⟨hretold, htarget, descriptor, hdescriptor, (hok descriptor).mpr hdescriptor⟩

end PropertyFacts

end ChangeNotification
