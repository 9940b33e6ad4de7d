import ChangeNotification.Proofs.Json.RoundTrip
import Mathlib.Data.Set.List
import Mathlib.Logic.Relation

/-! # Facts however they are presented

The members of an object may stand in any order, members that no field has may stand among them,
and a field may be left out where it holds its default, or written where it was left out. At every
depth the facts that are read stay the same. -/

namespace ChangeNotification

open Json

/-! ## The format of facts -/

/-- The records that facts are made of. -/
inductive FactRecord where
  | bundle | property | symbol | attr | location

/-- What stands in a field, as far as its members have an order. Literals are plain, and so are
variants, which have one member at most. -/
inductive FactForm where
  | plain
  | record (of : FactRecord)
  | records (of : FactRecord)
  | namedArguments

/-- A field of a record. A field may be missing if it has a default; this is how the default is
written. -/
structure FactField where
  name : String
  form : FactForm
  default : Option Json

namespace FactRecord

def fields : FactRecord → List FactField
  | bundle => [⟨"properties", .records property, some (.array [])⟩]
  | property => [
      ⟨"name", .plain, none⟩,
      ⟨"containingType", .record symbol, none⟩,
      ⟨"propertyType", .record symbol, none⟩,
      ⟨"accessibility", .plain, some (Accessibility.toJson .publicAccess)⟩,
      ⟨"accessorAccessibility", .plain, some .null⟩,
      ⟨"attributes", .records attr, some (.array [])⟩,
      ⟨"declarationSites", .records location, some (.array [])⟩]
  | symbol => [
      ⟨"name", .plain, none⟩,
      ⟨"kind", .plain, some (TypeKind.toJson .classType)⟩,
      ⟨"namespace", .plain, some (.array [])⟩,
      ⟨"containingType", .record symbol, some .null⟩,
      ⟨"nullableAnnotation", .plain, some (Nullability.toJson .unknown)⟩,
      ⟨"typeArguments", .records symbol, some (.array [])⟩,
      ⟨"elementType", .record symbol, some .null⟩,
      ⟨"arrayRank", .plain, some (.int 1)⟩,
      ⟨"allInterfaces", .plain, some (.array [])⟩]
  | attr => [
      ⟨"className", .plain, none⟩,
      ⟨"constructorArguments", .plain, some (.array [])⟩,
      ⟨"namedArguments", .namedArguments, some (.object [])⟩]
  | location => [⟨"path", .plain, none⟩, ⟨"line", .plain, none⟩, ⟨"column", .plain, none⟩]

def names (record : FactRecord) : List String := record.fields.map FactField.name

theorem names_nodup (record : FactRecord) : record.names.Nodup := by
  cases record <;> decide

theorem name_mem {record : FactRecord} {field : FactField} (h : field ∈ record.fields) :
    field.name ∈ record.names :=
  List.mem_map_of_mem h

theorem field_ext {record : FactRecord} {field other : FactField} (h : field ∈ record.fields)
    (hother : other ∈ record.fields) (hname : field.name = other.name) : field = other :=
  List.inj_on_of_nodup_map record.names_nodup h hother hname

def Value : FactRecord → Type
  | bundle => FactBundle
  | property => PropertyFacts
  | symbol => TypeSymbol
  | attr => Attribute
  | location => SourceLocation

def read : (record : FactRecord) → Json → Option record.Value
  | bundle => FactBundle.ofJson?
  | property => PropertyFacts.ofJson?
  | symbol => TypeSymbol.ofJson?
  | attr => Attribute.ofJson?
  | location => SourceLocation.ofJson?

end FactRecord

namespace FactForm

def Value : FactForm → Type
  | plain => Json
  | record of => of.Value
  | records of => List of.Value
  | namedArguments => OrderedMap String AttributeValue

def read : (form : FactForm) → Json → Option form.Value
  | plain => some
  | record of => of.read
  | records of => fun v => v.list? (of.read ·.val)
  | namedArguments => Attribute.namedArguments?

/-- What is read of the first value is read of the second. -/
def Keeps (form : FactForm) (v w : Json) : Prop :=
  ∀ value, form.read v = some value → form.read w = some value

theorem Keeps.trans {form : FactForm} {u v w : Json} (h : form.Keeps u v) (h' : form.Keeps v w) :
    form.Keeps u w :=
  fun value hread => h' value (h value hread)

end FactForm

/-! ## Presenting facts otherwise -/

/-- The second value presents the same as the first, but for one change in one place. Inside a
member that no field has there is nothing to present, and anything may change. -/
inductive Restates : FactForm → Json → Json → Prop
  | reorder {record : FactRecord} {members others : List (String × Json)}
      (hperm : members.Perm others) :
      Restates (.record record) (.object members) (.object others)
  /-- The names of arguments are data. Of several arguments of one name the last counts, so these
  stay in order. -/
  | reorderArguments {members others : List (String × Json)} (hperm : members.Perm others)
      (hrepeated : ∀ name, 1 < members.countP (·.1 = name) →
        members.filter (·.1 = name) = others.filter (·.1 = name)) :
      Restates .namedArguments (.object members) (.object others)
  | insertUnknown {record : FactRecord} {name : String} {v : Json}
      {before after : List (String × Json)} (hname : name ∉ record.names) :
      Restates (.record record) (.object (before ++ after)) (.object (before ++ (name, v) :: after))
  | changeUnknown {record : FactRecord} {name : String} {v w : Json}
      {before after : List (String × Json)} (hname : name ∉ record.names) :
      Restates (.record record) (.object (before ++ (name, v) :: after))
        (.object (before ++ (name, w) :: after))
  | leaveOut {record : FactRecord} {field : FactField} {default : Json}
      {before after : List (String × Json)} (hfield : field ∈ record.fields)
      (hdefault : field.default = some default) :
      Restates (.record record) (.object (before ++ (field.name, default) :: after))
        (.object (before ++ after))
  /-- Writes a default, such as `null`, for a field that is missing. -/
  | fillIn {record : FactRecord} {field : FactField} {default : Json}
      {before after : List (String × Json)} (hfield : field ∈ record.fields)
      (hdefault : field.default = some default)
      (habsent : field.name ∉ (before ++ after).map Prod.fst) :
      Restates (.record record) (.object (before ++ after))
        (.object (before ++ (field.name, default) :: after))
  | member {record : FactRecord} {field : FactField} {v w : Json}
      {before after : List (String × Json)} (hfield : field ∈ record.fields)
      (hv : Restates field.form v w) :
      Restates (.record record) (.object (before ++ (field.name, v) :: after))
        (.object (before ++ (field.name, w) :: after))
  | element {record : FactRecord} {v w : Json} {before after : List Json}
      (hv : Restates (.record record) v w) :
      Restates (.records record) (.array (before ++ v :: after)) (.array (before ++ w :: after))

theorem Restates.ne_null {form : FactForm} {v w : Json} (h : Restates form v w) :
    v ≠ .null ∧ w ≠ .null := by
  cases h <;> exact ⟨Json.noConfusion, Json.noConfusion⟩

/-! ## Fields -/

section

variable {form : FactForm} {field : FactField} {α β : Type}

/-- The reader takes values of the form. -/
def FactForm.IsReadBy (form : FactForm) (read : Json → Option α) : Prop :=
  ∀ v w, v ≠ .null → w ≠ .null → form.Keeps v w → ∀ a, read v = some a → read w = some a

theorem FactForm.isReadBy_read (form : FactForm) : form.IsReadBy form.read :=
  fun _ _ _ _ hkeeps => hkeeps

/-- A plain value is not presented otherwise, so that any reader takes it. -/
theorem FactForm.plain_isReadBy (read : Json → Option α) : FactForm.plain.IsReadBy read := by
  intro v w _ _ hkeeps a hread
  obtain rfl : w = v := Option.some.inj (hkeeps v rfl)
  exact hread

theorem FactForm.IsReadBy.orNull? {read : Json → Option α} (h : form.IsReadBy read) :
    form.IsReadBy (Json.orNull? read) := by
  intro v w hv hw hkeeps a hread
  rw [orNull?_of_ne_null hv, Option.map_eq_some_iff] at hread
  obtain ⟨b, hb, rfl⟩ := hread
  rw [orNull?_of_ne_null hw, h v w hv hw hkeeps b hb, Option.map_some]

/-- What stands in a field in one presentation and in the other. -/
inductive FactField.Keeps (field : FactField) : Option Json → Option Json → Prop
  | same (o : Option Json) : field.Keeps o o
  | restated {v w : Json} (hv : v ≠ .null) (hw : w ≠ .null) (hkeeps : field.form.Keeps v w) :
      field.Keeps (some v) (some w)
  | leftOut {default : Json} (hdefault : field.default = some default) :
      field.Keeps (some default) none
  | filledIn {default : Json} (hdefault : field.default = some default) :
      field.Keeps none (some default)

namespace FactField.Keeps

/-- Whether a field is given does not matter if its default is read as what it stands for when it
is not. -/
theorem read_eq {o o' : Option Json} (h : field.Keeps o o') {read : Json → Option α}
    {initial : Option α} (hread : field.form.IsReadBy read)
    (hdefault : ∀ default, field.default = some default → read default = initial) {a : α}
    (ha : (o.map read).getD initial = some a) : (o'.map read).getD initial = some a := by
  cases h with
  | same => exact ha
  | restated hv hw hkeeps => exact hread _ _ hv hw hkeeps a ha
  | leftOut hgiven => exact (hdefault _ hgiven).symm.trans ha
  | filledIn hgiven => exact (hdefault _ hgiven).trans ha

variable {j j' : Json} {r : j.Record} {r' : j'.Record}
  (h : field.Keeps (r.values.lookup field.name) (r'.values.lookup field.name))
  {read : Json → Option α} (hread : field.form.IsReadBy read)
include h hread

theorem required (hdefault : field.default = none) (a : α)
    (ha : r.required field.name (read ·.val) = some a) :
    r'.required field.name (read ·.val) = some a := by
  rw [Record.required_eq] at ha ⊢
  refine h.read_eq hread (fun default hgiven => ?_) ha
  cases hdefault.symm.trans hgiven

theorem defaulted {default : Json} (hdefault : field.default = some default) {initial : α}
    (hinitial : read default = some initial) (a : α)
    (ha : r.defaulted field.name initial (read ·.val) = some a) :
    r'.defaulted field.name initial (read ·.val) = some a := by
  rw [Record.defaulted_eq] at ha ⊢
  refine h.read_eq hread (fun written hgiven => ?_) ha
  cases hdefault.symm.trans hgiven
  exact hinitial

theorem optional (hdefault : field.default = some .null) (a : Option α)
    (ha : r.optional field.name (read ·.val) = some a) :
    r'.optional field.name (read ·.val) = some a := by
  rw [Record.optional_eq] at ha ⊢
  refine h.read_eq hread.orNull? (fun written hgiven => ?_) ha
  cases hdefault.symm.trans hgiven
  rfl

end FactField.Keeps

/-- What is read in two steps is kept if it is in each. -/
theorem bind_keeps {o o' : Option α} {next next' : α → Option β} {b : β}
    (h : ∀ a, o = some a → o' = some a) (hnext : ∀ a, next a = some b → next' a = some b)
    (hread : o >>= next = some b) : o' >>= next' = some b := by
  obtain ⟨a, ha, hb⟩ := Option.bind_eq_some_iff.mp hread
  exact Option.bind_eq_some_iff.mpr ⟨a, h a ha, hnext a hb⟩

end

/-! ## Records -/

namespace FactRecord

variable {record : FactRecord} {members others : List (String × Json)}

theorem read_eq_bind (record : FactRecord) (j : Json) :
    ∃ next : j.Record → Option record.Value, record.read j = j.record? record.names >>= next := by
  cases record with
  | bundle => exact ⟨_, rfl⟩
  | property => exact ⟨_, rfl⟩
  | symbol => exact ⟨_, by rw [read, TypeSymbol.ofJson?]; rfl⟩
  | attr => exact ⟨_, rfl⟩
  | location => exact ⟨_, rfl⟩

theorem givesOnce_of_read {value : record.Value} (h : record.read (.object members) = some value) :
    GivesOnce record.names members := by
  obtain ⟨next, hnext⟩ := record.read_eq_bind (.object members)
  exact givesOnce_of_record?_bind (hnext.symm.trans h)

/-- The fields of two objects hold the same in either presentation. -/
def FieldsKeep (record : FactRecord) (members others : List (String × Json)) : Prop :=
  ∀ field ∈ record.fields, field.Keeps (members.lookup field.name) (others.lookup field.name)

theorem record?_bind_keeps {α : Type} {a : α} {next : (object members).Record → Option α}
    {next' : (object others).Record → Option α} (hothers : GivesOnce record.names others)
    (hfields : record.FieldsKeep members others)
    (h : ∀ (r : (object members).Record) (r' : (object others).Record),
      record.FieldsKeep r.values r'.values → next r = some a → next' r' = some a)
    (hread : (object members).record? record.names >>= next = some a) :
    (object others).record? record.names >>= next' = some a := by
  refine record?_bind_congr hothers (fun r r' hr hr' => h r r' fun field hfield => ?_) hread
  rw [hr _ (name_mem hfield), hr' _ (name_mem hfield)]
  exact hfields field hfield

/-! ### Each record, field by field

Every field is read by a reader of its form, and stands for its default when it is missing. -/

section

open FactForm (plain_isReadBy isReadBy_read)

theorem bundle_keeps (hothers : GivesOnce bundle.names others)
    (hfields : bundle.FieldsKeep members others) :
    (FactForm.record bundle).Keeps (.object members) (.object others) := by
  intro value hread
  refine record?_bind_keeps hothers hfields (fun r r' h => ?_) hread
  simp only [FieldsKeep, fields, List.forall_mem_cons] at h
  obtain ⟨hproperties, -⟩ := h
  exact bind_keeps (hproperties.defaulted (isReadBy_read _) rfl rfl) fun _ => id

theorem property_keeps (hothers : GivesOnce property.names others)
    (hfields : property.FieldsKeep members others) :
    (FactForm.record property).Keeps (.object members) (.object others) := by
  intro value hread
  refine record?_bind_keeps hothers hfields (fun r r' h => ?_) hread
  simp only [FieldsKeep, fields, List.forall_mem_cons] at h
  obtain ⟨hname, hcontainingType, hpropertyType, haccessibility, haccessor, hattributes, hsites, -⟩ :=
    h
  refine bind_keeps (hname.required (plain_isReadBy _) rfl) fun name => ?_
  refine bind_keeps (hcontainingType.required (isReadBy_read _) rfl) fun containingType => ?_
  refine bind_keeps (hpropertyType.required (isReadBy_read _) rfl) fun propertyType => ?_
  refine bind_keeps (haccessibility.defaulted (plain_isReadBy _) rfl rfl) fun accessibility => ?_
  refine bind_keeps (haccessor.optional (plain_isReadBy _) rfl) fun accessorAccessibility => ?_
  refine bind_keeps (hattributes.defaulted (isReadBy_read _) rfl rfl) fun attributes => ?_
  exact bind_keeps (hsites.defaulted (isReadBy_read _) rfl rfl) fun _ => id

theorem symbol_keeps (hothers : GivesOnce symbol.names others)
    (hfields : symbol.FieldsKeep members others) :
    (FactForm.record symbol).Keeps (.object members) (.object others) := by
  intro value hread
  change TypeSymbol.ofJson? _ = _ at hread
  change TypeSymbol.ofJson? _ = _
  rw [TypeSymbol.ofJson?] at hread ⊢
  refine record?_bind_keeps hothers hfields (fun r r' h => ?_) hread
  simp only [FieldsKeep, fields, List.forall_mem_cons] at h
  obtain ⟨hname, hkind, hnamespace, hcontainingType, hnullability, harguments, helement, hrank,
    hinterfaces, -⟩ := h
  refine bind_keeps (hname.required (plain_isReadBy _) rfl) fun name => ?_
  refine bind_keeps (hkind.defaulted (plain_isReadBy _) rfl rfl) fun kind => ?_
  refine bind_keeps (hnamespace.defaulted (plain_isReadBy _) rfl rfl) fun namespaceSegments => ?_
  refine bind_keeps (hcontainingType.optional (isReadBy_read _) rfl) fun containingType => ?_
  refine bind_keeps (hnullability.defaulted (plain_isReadBy _) rfl rfl) fun nullability => ?_
  refine bind_keeps (harguments.defaulted (isReadBy_read _) rfl rfl) fun typeArguments => ?_
  refine bind_keeps (helement.optional (isReadBy_read _) rfl) fun elementType => ?_
  refine bind_keeps (hrank.defaulted (plain_isReadBy _) rfl rfl) fun arrayRank => ?_
  exact bind_keeps (hinterfaces.defaulted (plain_isReadBy _) rfl rfl) fun _ => id

theorem attr_keeps (hothers : GivesOnce attr.names others)
    (hfields : attr.FieldsKeep members others) :
    (FactForm.record attr).Keeps (.object members) (.object others) := by
  intro value hread
  refine record?_bind_keeps hothers hfields (fun r r' h => ?_) hread
  simp only [FieldsKeep, fields, List.forall_mem_cons] at h
  obtain ⟨hclassName, hconstructor, hnamed, -⟩ := h
  have hliterals := plain_isReadBy (·.list? (AttributeValue.ofJson? ·.val))
  refine bind_keeps (hclassName.required (plain_isReadBy _) rfl) fun className => ?_
  refine bind_keeps (hconstructor.defaulted hliterals rfl rfl) fun constructorArguments => ?_
  exact bind_keeps (hnamed.defaulted (isReadBy_read _) rfl rfl) fun _ => id

theorem location_keeps (hothers : GivesOnce location.names others)
    (hfields : location.FieldsKeep members others) :
    (FactForm.record location).Keeps (.object members) (.object others) := by
  intro value hread
  refine record?_bind_keeps hothers hfields (fun r r' h => ?_) hread
  simp only [FieldsKeep, fields, List.forall_mem_cons] at h
  obtain ⟨hpath, hline, hcolumn, -⟩ := h
  refine bind_keeps (hpath.required (plain_isReadBy _) rfl) fun path => ?_
  refine bind_keeps (hline.required (plain_isReadBy _) rfl) fun line => ?_
  exact bind_keeps (hcolumn.required (plain_isReadBy _) rfl) fun _ => id

end

theorem read_keeps (hothers : GivesOnce record.names others)
    (hfields : record.FieldsKeep members others) :
    (FactForm.record record).Keeps (.object members) (.object others) := by
  cases record with
  | bundle => exact bundle_keeps hothers hfields
  | property => exact property_keeps hothers hfields
  | symbol => exact symbol_keeps hothers hfields
  | attr => exact attr_keeps hothers hfields
  | location => exact location_keeps hothers hfields

/-! ### Changes among the members -/

theorem keeps_of_givesOnce (h : GivesOnce record.names members →
    GivesOnce record.names others ∧ record.FieldsKeep members others) :
    (FactForm.record record).Keeps (.object members) (.object others) := by
  intro value hread
  obtain ⟨hothers, hfields⟩ := h (record.givesOnce_of_read hread)
  exact record.read_keeps hothers hfields value hread

theorem keeps_of_perm (hperm : members.Perm others) :
    (FactForm.record record).Keeps (.object members) (.object others) := by
  refine keeps_of_givesOnce fun honce => ⟨honce.perm hperm, fun field hfield => ?_⟩
  rw [honce.lookup_perm hperm (name_mem hfield)]
  exact .same _

/-- A member may be put in the place of another one anywhere if it may at the head. -/
theorem keeps_middle {member other : String × Json} {before after : List (String × Json)}
    (h : (FactForm.record record).Keeps (.object (member :: (before ++ after)))
      (.object (other :: (before ++ after)))) :
    (FactForm.record record).Keeps (.object (before ++ member :: after))
      (.object (before ++ other :: after)) :=
  (keeps_of_perm List.perm_middle).trans (h.trans (keeps_of_perm List.perm_middle.symm))

theorem keeps_insert {name : String} (hname : name ∉ record.names) (v : Json) :
    (FactForm.record record).Keeps (.object members) (.object ((name, v) :: members)) := by
  refine keeps_of_givesOnce fun honce =>
    ⟨(givesOnce_cons_of_not_mem hname).mpr honce, fun field hfield => ?_⟩
  rw [lookup_cons_of_ne (ne_of_mem_of_not_mem (name_mem hfield) hname)]
  exact .same _

theorem keeps_remove {name : String} (hname : name ∉ record.names) (v : Json) :
    (FactForm.record record).Keeps (.object ((name, v) :: members)) (.object members) := by
  refine keeps_of_givesOnce fun honce =>
    ⟨(givesOnce_cons_of_not_mem hname).mp honce, fun field hfield => ?_⟩
  rw [lookup_cons_of_ne (ne_of_mem_of_not_mem (name_mem hfield) hname)]
  exact .same _

variable {field : FactField} (hfield : field ∈ record.fields)
include hfield

/-- A change of one field does not touch the other fields. -/
theorem FieldsKeep.of_field (h : field.Keeps (members.lookup field.name) (others.lookup field.name))
    (hothers : ∀ name ≠ field.name, members.lookup name = others.lookup name) :
    record.FieldsKeep members others := by
  intro other hother
  by_cases hname : other.name = field.name
  · obtain rfl := field_ext hother hfield hname
    exact h
  · rw [hothers _ hname]
    exact .same _

theorem keeps_member {v w : Json} (hv : v ≠ .null) (hw : w ≠ .null) (hkeeps : field.form.Keeps v w) :
    (FactForm.record record).Keeps (.object ((field.name, v) :: members))
      (.object ((field.name, w) :: members)) := by
  refine keeps_of_givesOnce fun honce => ⟨?_, FieldsKeep.of_field hfield ?_ fun name hname => ?_⟩
  · rwa [givesOnce_cons_of_mem (name_mem hfield)] at honce ⊢
  · rw [List.lookup_cons_self, List.lookup_cons_self]
    exact .restated hv hw hkeeps
  · rw [lookup_cons_of_ne hname, lookup_cons_of_ne hname]

theorem keeps_leaveOut {default : Json} (hdefault : field.default = some default) :
    (FactForm.record record).Keeps (.object ((field.name, default) :: members))
      (.object members) := by
  refine keeps_of_givesOnce fun honce => ?_
  obtain ⟨habsent, hrest⟩ := (givesOnce_cons_of_mem (name_mem hfield)).mp honce
  refine ⟨hrest, FieldsKeep.of_field hfield ?_ fun name hname => lookup_cons_of_ne hname⟩
  rw [List.lookup_cons_self, habsent]
  exact .leftOut hdefault

theorem keeps_fillIn {default : Json} (hdefault : field.default = some default)
    (habsent : members.lookup field.name = none) :
    (FactForm.record record).Keeps (.object members)
      (.object ((field.name, default) :: members)) := by
  refine keeps_of_givesOnce fun honce =>
    ⟨(givesOnce_cons_of_mem (name_mem hfield)).mpr ⟨habsent, honce⟩,
      FieldsKeep.of_field hfield ?_ fun name hname => (lookup_cons_of_ne hname).symm⟩
  rw [List.lookup_cons_self, habsent]
  exact .filledIn hdefault

end FactRecord

/-! ## Named arguments -/

namespace Attribute

theorem fst_namedArgument? {member : String × Json} {entry : String × AttributeValue}
    (h : namedArgument? member = some entry) : entry.1 = member.1 := by
  obtain ⟨value, -, rfl⟩ := Option.map_eq_some_iff.mp h
  rfl

/-- The arguments of one name are read from the members of this name. -/
theorem filter_namedArguments {members : List (String × Json)}
    {entries : List (String × AttributeValue)}
    (h : members.map namedArgument? = entries.map some) (name : String) :
    (members.filter (·.1 = name)).map namedArgument? =
      (entries.filter (·.1 = name)).map some := by
  induction members generalizing entries with
  | nil =>
      obtain rfl : entries = [] := by simpa using h.symm
      rfl
  | cons member members ih =>
      cases entries with
      | nil => cases h
      | cons entry entries =>
          obtain ⟨hhead, hrest⟩ := List.cons.inj h
          have hname := fst_namedArgument? hhead
          by_cases hmember : member.1 = name
          · simp [hname, hmember, hhead, ih hrest]
          · simp [hname, hmember, ih hrest]

theorem namedArguments?_perm {members others : List (String × Json)} (hperm : members.Perm others)
    (hsame : ∀ name, members.filter (·.1 = name) = others.filter (·.1 = name))
    {arguments : OrderedMap String AttributeValue}
    (hread : namedArguments? (.object members) = some arguments) :
    namedArguments? (.object others) = some arguments := by
  rw [namedArguments?_object, Option.map_eq_some_iff] at hread ⊢
  obtain ⟨entries, hentries, rfl⟩ := hread
  rw [mapM_eq_some_iff] at hentries
  have hwritten : others.map namedArgument? ∈ Set.range (List.map some) := by
    rw [Set.range_list_map]
    intro o ho
    have hmem : o ∈ entries.map some := hentries ▸ (hperm.map _).mem_iff.mpr ho
    obtain ⟨entry, -, rfl⟩ := List.mem_map.mp hmem
    exact ⟨entry, rfl⟩
  obtain ⟨entries', hentries'⟩ := hwritten
  refine ⟨entries', mapM_eq_some_iff.mpr hentries'.symm, OrderedMap.ofList_congr fun name => ?_⟩
  have hfilter := filter_namedArguments hentries name
  rw [hsame name, filter_namedArguments hentries'.symm] at hfilter
  exact List.map_injective_iff.mpr (Option.some_injective _) hfilter

end Attribute

/-! ## Every presentation is read the same -/

/-- Members of names that are not repeated stand alone in either order. -/
theorem filter_eq_of_perm {members others : List (String × Json)} (hperm : members.Perm others)
    {name : String} (honce : members.countP (·.1 = name) ≤ 1) :
    members.filter (·.1 = name) = others.filter (·.1 = name) := by
  have hfilter := hperm.filter (·.1 = name)
  rw [List.countP_eq_length_filter] at honce
  generalize members.filter (·.1 = name) = alone at hfilter honce ⊢
  match alone with
  | [] => exact hfilter.nil_eq
  | [_] => exact (List.perm_singleton.mp hfilter.symm).symm
  | _ :: _ :: _ => simp at honce

theorem Restates.keeps {form : FactForm} {v w : Json} (h : Restates form v w) : form.Keeps v w := by
  induction h with
  | reorder hperm => exact FactRecord.keeps_of_perm hperm
  | @reorderArguments members others hperm hrepeated =>
      have hsame (name : String) :
          members.filter (·.1 = name) = others.filter (·.1 = name) := by
        rcases Nat.lt_or_ge 1 (members.countP (·.1 = name)) with hcount | hcount
        · exact hrepeated name hcount
        · exact filter_eq_of_perm hperm hcount
      exact fun arguments => Attribute.namedArguments?_perm hperm hsame
  | insertUnknown hname =>
      exact (FactRecord.keeps_insert hname _).trans (FactRecord.keeps_of_perm List.perm_middle.symm)
  | changeUnknown hname =>
      exact FactRecord.keeps_middle
        ((FactRecord.keeps_remove hname _).trans (FactRecord.keeps_insert hname _))
  | leaveOut hfield hdefault =>
      exact (FactRecord.keeps_of_perm List.perm_middle).trans
        (FactRecord.keeps_leaveOut hfield hdefault)
  | fillIn hfield hdefault habsent =>
      exact (FactRecord.keeps_fillIn hfield hdefault (lookup_eq_none_of_not_mem habsent)).trans
        (FactRecord.keeps_of_perm List.perm_middle.symm)
  | member hfield hv ih =>
      obtain ⟨hv, hw⟩ := hv.ne_null
      exact FactRecord.keeps_middle (FactRecord.keeps_member hfield hv hw ih)
  | element _ ih => exact fun _ => list?_element ih

/-- However often facts are presented otherwise, at whatever depth, they are read the same. -/
theorem Restates.keeps_of_reflTransGen {form : FactForm} {v w : Json}
    (h : Relation.ReflTransGen (Restates form) v w) : form.Keeps v w := by
  induction h with
  | refl => exact fun _ hread => hread
  | tail _ hlast ih => exact ih.trans hlast.keeps

/-- A bundle does not depend on how it is presented: on the order of members, on members that no
field has, and on whether defaults are written. -/
theorem FactBundle.ofJson?_of_restates {j j' : Json} {bundle : FactBundle}
    (hread : ofJson? j = some bundle)
    (h : Relation.ReflTransGen (Restates (.record .bundle)) j j') : ofJson? j' = some bundle :=
  Restates.keeps_of_reflTransGen h bundle hread

/-- Facts about one property. -/
def FactBundle.sampleName : FactBundle where
  properties := [
    { name := "Name", containingType := { name := "Person" }, propertyType := { name := "Text" } }]

/-- The type of the property in other words: the rank is left out, the absent element type is
`null`, a comment is added, and the name comes last. -/
def TypeSymbol.sampleTextToJson : Json :=
  .object [
    ("kind", .string "class"), ("namespace", .array []), ("nullableAnnotation", .string "Unknown"),
    ("typeArguments", .array []), ("allInterfaces", .array []), ("elementType", .null),
    ("comment", .object [("kind", .string "struct")]), ("name", .string "Text")]

theorem TypeSymbol.restates_sampleTextToJson :
    Relation.ReflTransGen (Restates (.record .symbol)) (toJson { name := "Text" })
      sampleTextToJson := by
  let start : List (String × Json) := [
    ("name", .string "Text"), ("kind", .string "class"), ("namespace", .array []),
    ("nullableAnnotation", .string "Unknown"), ("typeArguments", .array [])]
  let rest : List (String × Json) := [("allInterfaces", .array []), ("elementType", .null)]
  let comment : String × Json := ("comment", .object [("kind", .string "struct")])
  have hrank : Restates (.record .symbol) (toJson { name := "Text" })
      (.object (start ++ [("allInterfaces", .array [])])) :=
    @Restates.leaveOut .symbol ⟨"arrayRank", .plain, some (.int 1)⟩ (.int 1) start
      [("allInterfaces", .array [])] (by simp [FactRecord.fields]) rfl
  have helement : Restates (.record .symbol) (.object (start ++ [("allInterfaces", .array [])]))
      (.object (start ++ rest)) :=
    @Restates.fillIn .symbol ⟨"elementType", .record .symbol, some .null⟩ .null
      (start ++ [("allInterfaces", .array [])]) [] (by simp [FactRecord.fields]) rfl (by decide)
  have hcomment : Restates (.record .symbol) (.object (start ++ rest ++ []))
      (.object (start ++ rest ++ [comment])) :=
    .insertUnknown (by simp [FactRecord.names, FactRecord.fields])
  have horder : Restates (.record .symbol) (.object (start ++ rest ++ [comment]))
      sampleTextToJson := by
    refine .reorder ?_
    exact (List.perm_append_singleton _ (start.tail ++ rest ++ [comment])).symm
  exact .head hrank (.head helement (.head hcomment (.single horder)))

theorem FactBundle.ofJson?_of_restates_sampleName :
    ofJson? sampleName.toJson = some sampleName ∧
      ofJson? (.object [("properties", .array [.object [
        ("name", .string "Name"),
        ("containingType", TypeSymbol.toJson { name := "Person" }),
        ("propertyType", TypeSymbol.sampleTextToJson),
        ("accessibility", .string "public"),
        ("attributes", .array []),
        ("declarationSites", .array [])]])]) = some sampleName := by
  have hwritten := sampleName.ofJson?_toJson
  refine ⟨hwritten, ofJson?_of_restates hwritten ?_⟩
  let property (propertyType : Json) : Json := .object ([
    ("name", .string "Name"), ("containingType", TypeSymbol.toJson { name := "Person" })] ++
    ("propertyType", propertyType) :: [
    ("accessibility", .string "public"), ("attributes", .array []),
    ("declarationSites", .array [])])
  let facts (propertyType : Json) : Json := .object [("properties", .array [property propertyType])]
  have hlift (v w : Json) (h : Restates (.record .symbol) v w) :
      Restates (.record .bundle) (facts v) (facts w) := by
    have hproperty : Restates (.record .property) (property v) (property w) :=
      @Restates.member .property ⟨"propertyType", .record .symbol, none⟩ _ _ _ _
        (by simp [FactRecord.fields]) h
    exact @Restates.member .bundle ⟨"properties", .records .property, some (.array [])⟩ _ _ [] []
      (by simp [FactRecord.fields]) (@Restates.element .property _ _ [] [] hproperty)
  exact TypeSymbol.restates_sampleTextToJson.lift facts hlift

end ChangeNotification
