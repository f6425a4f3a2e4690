import Mupnp.Foundation.LoopIndex
import Mupnp.Util.StringFunction

/-!
# Fields of device types and service types

The functions of `device.c` and `service.c` that copy a part out of a type string such as
`urn:schemas-upnp-org:device:MediaServer:1`. Each of them counts colons with indices, of type
`size_t` for device types and of type `int` for service types, and then copies what is between two
of them. A text is a string of bytes here, one character each.

A getter has no result when an `int` overflows, which C leaves undefined. `reads_fields_iff` says
when all twelve getters read the fields of a type: an identifier of one character is not found,
because the index of its last character is zero.
-/

set_option autoImplicit false
set_option relaxedAutoImplicit false

namespace Mupnp.Service

open Foundation Util IndexType

/-! ### The getters -/

/-- A loop over a string with an index: at the colon behind `last` other ones it stops, with what
`stop` makes of the index, and else the index counts up. -/
def scanTo (ix : IndexType) (last : ℕ) (stop : ℤ → Option ℤ) (count : ℕ) (index : ℤ) :
    CString → Option ℤ
  | [] => some index
  | c :: rest =>
    if c = ':' then
      if count = last then stop index
      else (ix.incr index).bind fun next ↦ scanTo ix last stop (count + 1) next rest
    else (ix.incr index).bind fun next ↦ scanTo ix last stop count next rest

/-- The part of a type up to the colon behind `last` other ones: `tail` is the index of its last
character. -/
def partTo (ix : IndexType) (last : ℕ) (type : CString) : Option (Option CString) :=
  (scanTo ix last ix.decr 0 0 type).map fun tail ↦
    if 0 < tail ∧ asSize tail < type.length then some (type.take (tail + 1).toNat) else none

/-- The part of a type between the colon behind `last` other ones and the next one: `head` and
`tail` are the indices of its first and its last character. A tail at the end of the string counts
only with `orEnd`. -/
def partBehind (ix : IndexType) (last : ℕ) (orEnd : Bool) (type : CString) :
    Option (Option CString) :=
  (scanTo ix last ix.incr 0 0 type).bind fun head ↦
    (scanTo ix 0 ix.decr 0 head (type.drop head.toNat)).map fun tail ↦
      if 0 < head ∧ asSize head < type.length ∧ 0 < tail ∧
          (asSize tail < type.length ∨ orEnd = true ∧ asSize tail = type.length) then
        some ((type.drop head.toNat).take (tail - head + 1).toNat)
      else none

/-- What a getter gives for a type, and `NULL` for `NULL`. -/
def getPart (part : CString → Option (Option CString)) :
    Option CString → Option (Option CString)
  | none => some none
  | some type => part type

/-- `mupnp_devicetype_getidentifier`. -/
def deviceTypeGetIdentifier : Option CString → Option (Option CString) := getPart (partTo size 0)

/-- `mupnp_devicetype_geturn`. -/
def deviceTypeGetUrn : Option CString → Option (Option CString) :=
  getPart (partBehind size 0 false)

/-- `mupnp_devicetype_getdevice`. -/
def deviceTypeGetDevice : Option CString → Option (Option CString) :=
  getPart (partBehind size 1 false)

/-- `mupnp_devicetype_gettype`. -/
def deviceTypeGetType : Option CString → Option (Option CString) :=
  getPart (partBehind size 2 false)

/-- `mupnp_devicetype_getschematype`. -/
def deviceTypeGetSchemaType : Option CString → Option (Option CString) := getPart (partTo size 3)

/-- `mupnp_devicetype_getversion`. -/
def deviceTypeGetVersion : Option CString → Option (Option CString) :=
  getPart (partBehind size 3 true)

/-- `mupnp_servicetype_getidentifier`. -/
def serviceTypeGetIdentifier : Option CString → Option (Option CString) := getPart (partTo int 0)

/-- `mupnp_servicetype_geturn`. -/
def serviceTypeGetUrn : Option CString → Option (Option CString) :=
  getPart (partBehind int 0 false)

/-- `mupnp_servicetype_getservice`. -/
def serviceTypeGetService : Option CString → Option (Option CString) :=
  getPart (partBehind int 1 false)

/-- `mupnp_servicetype_gettype`. -/
def serviceTypeGetType : Option CString → Option (Option CString) :=
  getPart (partBehind int 2 false)

/-- `mupnp_servicetype_getschematype`. -/
def serviceTypeGetSchemaType : Option CString → Option (Option CString) := getPart (partTo int 3)

/-- `mupnp_servicetype_getversion`. -/
def serviceTypeGetVersion : Option CString → Option (Option CString) :=
  getPart (partBehind int 3 true)

/-! ### The loop -/

/-- Some fields with a colon behind each of them. -/
def closed (fields : List CString) : CString := fields.flatMap (· ++ [':'])

theorem closed_cons (field : CString) (fields : List CString) :
    closed (field :: fields) = field ++ ':' :: closed fields := by
  rw [closed, closed, List.flatMap_cons, List.append_assoc]
  rfl

theorem closed_concat (fields : List CString) (field : CString) :
    closed (fields ++ [field]) = closed fields ++ (field ++ [':']) := by
  rw [closed, closed, List.flatMap_append]
  exact congrArg _ (List.append_nil _)

section loop

variable {ix : IndexType} {last : ℕ} {stop : ℤ → Option ℤ}

/-- The loop counts over a field. -/
theorem scanTo_append (count : ℕ) (index : ℤ) {field : CString} (hfield : ':' ∉ field)
    (rest : CString) : scanTo ix last stop count index (field ++ rest) =
      (ix.advance field.length index).bind fun next ↦ scanTo ix last stop count next rest := by
  induction field generalizing index with
  | nil => rfl
  | cons c field ih =>
    have hc : c ≠ ':' := fun heq ↦ hfield (heq ▸ List.mem_cons_self)
    have hrest : ':' ∉ field := fun hmem ↦ hfield (List.mem_cons_of_mem _ hmem)
    rw [List.cons_append, scanTo, if_neg hc, List.length_cons, advance, Option.bind_assoc]
    exact Option.bind_congr fun next _ ↦ ih next hrest

/-- The loop counts over a field to the end of the string. -/
theorem scanTo_field (count : ℕ) (index : ℤ) {field : CString} (hfield : ':' ∉ field) :
    scanTo ix last stop count index field = ix.advance field.length index := by
  have happend := @scanTo_append ix last stop count index field hfield []
  rw [List.append_nil] at happend
  rw [happend]
  cases ix.advance field.length index with
  | none => rfl
  | some next => rfl

/-- The loop counts over the fields in front of the one that it looks for. -/
theorem scanTo_closed (count : ℕ) (index : ℤ) {fields : List CString}
    (hfields : ∀ field ∈ fields, ':' ∉ field) (hcount : count + fields.length ≤ last)
    (rest : CString) : scanTo ix last stop count index (closed fields ++ rest) =
      (ix.advance (closed fields).length index).bind fun next ↦
        scanTo ix last stop (count + fields.length) next rest := by
  induction fields generalizing count index with
  | nil => rfl
  | cons field fields ih =>
    rw [List.length_cons] at hcount ⊢
    have hfield := hfields field List.mem_cons_self
    have hrest : ∀ other ∈ fields, ':' ∉ other :=
      fun other hother ↦ hfields other (List.mem_cons_of_mem _ hother)
    have hlength : (closed (field :: fields)).length =
        field.length + (1 + (closed fields).length) := by
      rw [closed_cons, List.length_append, List.length_cons, Nat.add_comm 1]
    have hnext : count + (fields.length + 1) = count + 1 + fields.length := by omega
    rw [hlength, advance_add, Option.bind_assoc, closed_cons, List.append_assoc,
      scanTo_append count index hfield, hnext]
    refine Option.bind_congr fun next _ ↦ ?_
    have hne : count ≠ last := by omega
    rw [List.cons_append, scanTo, if_pos rfl, if_neg hne, advance_add, advance_one,
      Option.bind_assoc]
    exact Option.bind_congr fun behind _ ↦ ih (count + 1) behind hrest (by omega)

/-- The loop stops at the colon behind the field that it looks for. -/
theorem scanTo_stop (index : ℤ) {fields : List CString} {field : CString}
    (hfields : ∀ field ∈ fields, ':' ∉ field) (hfield : ':' ∉ field)
    (hlast : fields.length = last) (rest : CString) :
    scanTo ix last stop 0 index (closed fields ++ (field ++ ':' :: rest)) =
      (ix.advance (closed fields ++ field).length index).bind stop := by
  rw [scanTo_closed 0 index hfields (by omega), List.length_append, advance_add, Option.bind_assoc]
  refine Option.bind_congr fun next _ ↦ ?_
  rw [scanTo_append _ next hfield]
  refine Option.bind_congr fun behind _ ↦ ?_
  rw [scanTo, if_pos rfl, if_pos (by omega)]

/-- The loop for the first character of a field counts over the fields in front of it. -/
theorem scanTo_incr {fields : List CString} (hfields : ∀ field ∈ fields, ':' ∉ field)
    (hlast : fields.length = last + 1) (rest : CString) :
    scanTo ix last ix.incr 0 0 (closed fields ++ rest) =
      ix.advance (closed fields).length 0 := by
  rcases List.eq_nil_or_concat fields with hnil | ⟨front, field, hconcat⟩
  · rw [hnil] at hlast
    exact absurd hlast (Nat.succ_ne_zero last).symm
  · subst hconcat
    have hlength : front.length = last := by
      rw [List.concat_eq_append, List.length_append] at hlast
      exact Nat.succ.inj hlast
    have hfront : ∀ other ∈ front, ':' ∉ other :=
      fun other hother ↦ hfields other (by simp [hother])
    have hfield : ':' ∉ field := hfields field (by simp)
    have htext : closed (front.concat field) ++ rest =
        closed front ++ (field ++ ':' :: rest) := by
      rw [List.concat_eq_append, closed_concat, List.append_assoc, List.append_assoc]
      rfl
    have hclosed : (closed (front.concat field)).length = (closed front ++ field).length + 1 := by
      rw [List.concat_eq_append, closed_concat, ← List.append_assoc, List.length_append]
      rfl
    rw [htext, scanTo_stop 0 hfront hfield hlength, hclosed, advance_add]
    exact Option.bind_congr fun next _ ↦ (advance_one next).symm

end loop

/-! ### The parts -/

section parts

variable {ix : IndexType} {last : ℕ} {fields : List CString} {field rest : CString}

/-- The part up to a colon is what stands in front of it, unless that is a single character. -/
theorem partTo_eq {front : CString} (hfront : front = closed fields ++ field)
    (hfields : ∀ field ∈ fields, ':' ∉ field) (hfield : ':' ∉ field) (hne : field ≠ [])
    (hlast : fields.length = last) (hlength : ((front ++ ':' :: rest).length : ℤ) ≤ ix.last) :
    partTo ix last (front ++ ':' :: rest) =
      some (if 1 < front.length then some front else none) := by
  have hpos : 0 < front.length := by
    have hfieldPos := List.length_pos_of_ne_nil hne
    rw [hfront, List.length_append]
    omega
  rw [List.length_append, List.length_cons] at hlength
  have hscan : scanTo ix last ix.decr 0 0 (front ++ ':' :: rest) =
      some ((front.length : ℤ) - 1) := by
    have hstop := @scanTo_stop ix last ix.decr 0 fields field hfields hfield hlast rest
    rw [← List.append_assoc, ← hfront] at hstop
    rw [hstop, advance_of_le (Int.le_refl 0) (by omega), Option.bind_some,
      decr_of_pos (by omega) (by omega), Int.zero_add]
  have hsize : asSize ((front.length : ℤ) - 1) = (front.length : ℤ) - 1 :=
    @asSize_of_le ix _ (by omega) (by omega)
  have hinside : asSize ((front.length : ℤ) - 1) < ((front ++ ':' :: rest).length : ℤ) := by
    rw [hsize, List.length_append, List.length_cons]
    omega
  have htake : (front ++ ':' :: rest).take ((front.length : ℤ) - 1 + 1).toNat = front := by
    have hcount : ((front.length : ℤ) - 1 + 1).toNat = front.length := by omega
    rw [hcount, List.take_left]
  rw [partTo, hscan, Option.map_some, htake]
  by_cases hone : 1 < front.length
  · rw [if_pos ⟨by omega, hinside⟩, if_pos hone]
  · rw [if_neg fun htest ↦ hone (by omega), if_neg hone]

/-- The part behind a colon is the field there. -/
theorem partBehind_eq {orEnd : Bool} (hfields : ∀ field ∈ fields, ':' ∉ field)
    (hfield : ':' ∉ field) (hne : field ≠ []) (hlast : fields.length = last + 1)
    (hlength : ((closed fields ++ (field ++ rest)).length : ℤ) ≤ ix.last)
    (hrest : rest = [] ∧ orEnd = true ∨ ∃ others, rest = ':' :: others) :
    partBehind ix last orEnd (closed fields ++ (field ++ rest)) = some (some field) := by
  have hpos := List.length_pos_of_ne_nil hne
  have htype : (closed fields ++ (field ++ rest)).length =
      (closed fields).length + (field.length + rest.length) := by
    rw [List.length_append, List.length_append]
  rw [htype] at hlength
  have hfront : 0 < (closed fields).length := by
    obtain ⟨first, others, rfl⟩ := List.exists_cons_of_ne_nil
      (List.ne_nil_of_length_pos (by omega : 0 < fields.length))
    rw [closed_cons, List.length_append, List.length_cons]
    omega
  have hhead : scanTo ix last ix.incr 0 0 (closed fields ++ (field ++ rest)) =
      some ((closed fields).length : ℤ) := by
    rw [scanTo_incr hfields hlast, advance_of_le (Int.le_refl 0) (by omega), Int.zero_add]
  have hdrop : (closed fields ++ (field ++ rest)).drop (((closed fields).length : ℤ)).toNat =
      field ++ rest := List.drop_left
  have hadvance : ix.advance field.length (closed fields).length =
      some ((closed fields).length + field.length : ℤ) :=
    advance_of_le (by omega) (by omega)
  have hheadSize : asSize ((closed fields).length : ℤ) = (closed fields).length :=
    @asSize_of_le ix _ (by omega) (by omega)
  rw [partBehind, hhead, Option.bind_some, hdrop, hheadSize, htype]
  rcases hrest with ⟨rfl, rfl⟩ | ⟨others, rfl⟩
  · have htail : asSize ((closed fields).length + field.length : ℤ) =
        (closed fields).length + field.length := @asSize_of_le ix _ (by omega) (by omega)
    have htake : ((closed fields).length + field.length - (closed fields).length + 1 : ℤ).toNat =
        field.length + 1 := by omega
    rw [List.append_nil, scanTo_field 0 _ hfield, hadvance, Option.map_some, htail, htake,
      List.take_of_length_le (Nat.le_succ _), if_pos]
    rw [List.length_nil]
    exact ⟨by omega, by omega, by omega, Or.inr ⟨rfl, by omega⟩⟩
  · have htail : asSize ((closed fields).length + field.length - 1 : ℤ) =
        (closed fields).length + field.length - 1 := @asSize_of_le ix _ (by omega) (by omega)
    have htake :
        ((closed fields).length + field.length - 1 - (closed fields).length + 1 : ℤ).toNat =
          field.length := by omega
    have hscan : scanTo ix 0 ix.decr 0 ((closed fields).length : ℤ) (field ++ ':' :: others) =
        some ((closed fields).length + field.length - 1 : ℤ) := by
      rw [scanTo_append 0 _ hfield, hadvance, Option.bind_some, scanTo, if_pos rfl, if_pos rfl,
        decr_of_pos (by omega) (by omega)]
    rw [hscan, Option.map_some, htail, htake, List.take_left, if_pos]
    rw [List.length_cons]
    exact ⟨by omega, by omega, by omega, Or.inl (by omega)⟩

/-- The part at the end of a type is not reached with a signed index that is too small. -/
theorem partBehind_int_eq_none {orEnd : Bool} (hfields : ∀ field ∈ fields, ':' ∉ field)
    (hfield : ':' ∉ field) (hlast : fields.length = last + 1)
    (hlength : int.last < ((closed fields ++ field).length : ℤ)) :
    partBehind int last orEnd (closed fields ++ field) = none := by
  rw [List.length_append] at hlength
  rw [partBehind, scanTo_incr hfields hlast]
  by_cases hfront : ((closed fields).length : ℤ) ≤ int.last
  · rw [advance_of_le (Int.le_refl 0) (by omega), Option.bind_some, Int.zero_add, Int.toNat_natCast,
      List.drop_left, scanTo_field 0 _ hfield, advance_int_of_lt (by omega) hfront (by omega)]
    rfl
  · rw [advance_int_of_lt (Int.le_refl 0) (by decide) (by omega)]
    rfl

end parts

/-! ### All fields of a type -/

/-- The five fields of a type: they are not empty and have no colon. -/
structure TypeFields where
  identifier : CString
  urn : CString
  kind : CString
  type : CString
  version : CString
  ne_nil : ∀ field ∈ [identifier, urn, kind, type, version], field ≠ []
  colon_not_mem : ∀ field ∈ [identifier, urn, kind, type, version], ':' ∉ field

namespace TypeFields

def fields (type : TypeFields) : List CString :=
  [type.identifier, type.urn, type.kind, type.type, type.version]

/-- The type itself. -/
def text (type : TypeFields) : CString := [':'].intercalate type.fields

/-- The first four fields, joined with colons. -/
def schemaType (type : TypeFields) : CString := [':'].intercalate (type.fields.take 4)

end TypeFields

/-- What the getters for device types give. -/
def deviceTypeParts (deviceType : Option CString) : List (Option (Option CString)) :=
  [deviceTypeGetIdentifier deviceType, deviceTypeGetUrn deviceType, deviceTypeGetDevice deviceType,
    deviceTypeGetType deviceType, deviceTypeGetSchemaType deviceType,
    deviceTypeGetVersion deviceType]

/-- What the getters for service types give. -/
def serviceTypeParts (serviceType : Option CString) : List (Option (Option CString)) :=
  [serviceTypeGetIdentifier serviceType, serviceTypeGetUrn serviceType,
    serviceTypeGetService serviceType, serviceTypeGetType serviceType,
    serviceTypeGetSchemaType serviceType, serviceTypeGetVersion serviceType]

/-- What the getters are to give: the fields, and the schema type in front of the version. -/
def TypeFields.parts (type : TypeFields) : List (Option (Option CString)) :=
  [type.identifier, type.urn, type.kind, type.type, type.schemaType, type.version].map
    fun part ↦ some (some part)

/-- All getters read the fields of a type, those for device types and those for service types
alike. -/
structure ReadsFields (type : TypeFields) : Prop where
  device : deviceTypeParts (some type.text) = type.parts
  service : serviceTypeParts (some type.text) = type.parts
  agree : deviceTypeParts (some type.text) = serviceTypeParts (some type.text)

section fields

variable (type : TypeFields)

theorem colon_not_mem_take (count : ℕ) : ∀ field ∈ type.fields.take count, ':' ∉ field :=
  fun field hfield ↦ type.colon_not_mem field (List.mem_of_mem_take hfield)

theorem text_eq_closed_append :
    type.text = closed (type.fields.take 4) ++ type.version := by
  simp [TypeFields.text, TypeFields.fields, closed]

/-- The getters of a family, with the type of their indices, read the fields of a type that the
indices reach the end of, but for an identifier of one character. -/
theorem parts_eq {ix : IndexType} (hlength : (type.text.length : ℤ) ≤ ix.last) :
    [partTo ix 0 type.text, partBehind ix 0 false type.text, partBehind ix 1 false type.text,
      partBehind ix 2 false type.text, partTo ix 3 type.text, partBehind ix 3 true type.text] =
      some (if 1 < type.identifier.length then some type.identifier else none) ::
        type.parts.tail := by
  have hne : ∀ field ∈ type.fields, field ≠ [] := type.ne_nil
  have hcolon : ∀ field ∈ type.fields, ':' ∉ field := type.colon_not_mem
  have hidentifier : partTo ix 0 type.text =
      some (if 1 < type.identifier.length then some type.identifier else none) := by
    have htext : type.text = type.identifier ++ ':' ::
        [':'].intercalate [type.urn, type.kind, type.type, type.version] := by
      simp [TypeFields.text, TypeFields.fields]
    rw [htext] at hlength ⊢
    exact partTo_eq rfl (colon_not_mem_take type 0) (hcolon _ (by simp [TypeFields.fields]))
      (hne _ (by simp [TypeFields.fields])) rfl hlength
  have hurn : partBehind ix 0 false type.text = some (some type.urn) := by
    have htext : type.text = closed (type.fields.take 1) ++ (type.urn ++ ':' ::
        [':'].intercalate [type.kind, type.type, type.version]) := by
      simp [TypeFields.text, TypeFields.fields, closed]
    rw [htext] at hlength ⊢
    exact partBehind_eq (colon_not_mem_take type 1) (hcolon _ (by simp [TypeFields.fields]))
      (hne _ (by simp [TypeFields.fields])) rfl hlength (Or.inr ⟨_, rfl⟩)
  have hkind : partBehind ix 1 false type.text = some (some type.kind) := by
    have htext : type.text = closed (type.fields.take 2) ++ (type.kind ++ ':' ::
        [':'].intercalate [type.type, type.version]) := by
      simp [TypeFields.text, TypeFields.fields, closed]
    rw [htext] at hlength ⊢
    exact partBehind_eq (colon_not_mem_take type 2) (hcolon _ (by simp [TypeFields.fields]))
      (hne _ (by simp [TypeFields.fields])) rfl hlength (Or.inr ⟨_, rfl⟩)
  have htype : partBehind ix 2 false type.text = some (some type.type) := by
    have htext : type.text = closed (type.fields.take 3) ++ (type.type ++ ':' :: type.version) := by
      simp [TypeFields.text, TypeFields.fields, closed]
    rw [htext] at hlength ⊢
    exact partBehind_eq (colon_not_mem_take type 3) (hcolon _ (by simp [TypeFields.fields]))
      (hne _ (by simp [TypeFields.fields])) rfl hlength (Or.inr ⟨_, rfl⟩)
  have hschema : partTo ix 3 type.text = some (some type.schemaType) := by
    have hsplit : type.schemaType = closed (type.fields.take 3) ++ type.type := by
      simp [TypeFields.schemaType, TypeFields.fields, closed]
    have htext : type.text = type.schemaType ++ ':' :: type.version := by
      simp [TypeFields.text, TypeFields.schemaType, TypeFields.fields]
    have hlong : 1 < type.schemaType.length := by
      rw [hsplit]
      simp [TypeFields.fields, closed]
      omega
    rw [htext] at hlength ⊢
    have hlast : (type.fields.take 3).length = 3 := rfl
    rw [partTo_eq hsplit (colon_not_mem_take type 3) (hcolon _ (by simp [TypeFields.fields]))
      (hne _ (by simp [TypeFields.fields])) hlast hlength, if_pos hlong]
  have hversion : partBehind ix 3 true type.text = some (some type.version) := by
    have htext := text_eq_closed_append type
    rw [← List.append_nil type.version] at htext
    rw [htext] at hlength ⊢
    exact partBehind_eq (colon_not_mem_take type 4) (hcolon _ (by simp [TypeFields.fields]))
      (hne _ (by simp [TypeFields.fields])) rfl hlength (Or.inl ⟨rfl, rfl⟩)
  rw [hidentifier, hurn, hkind, htype, hschema, hversion]
  rfl

end fields

/-- The getters read the fields of a type exactly when its identifier has two characters at least
and the index of its end is an `int`. -/
theorem reads_fields_iff (type : TypeFields) :
    ReadsFields type ↔ 2 ≤ type.identifier.length ∧ (type.text.length : ℤ) ≤ int.last := by
  constructor
  · intro hreads
    have hlength : (type.text.length : ℤ) ≤ int.last := by
      by_contra hlong
      have hoverflow : partBehind int 3 true type.text = none := by
        have htext := text_eq_closed_append type
        rw [htext] at hlong ⊢
        exact partBehind_int_eq_none (colon_not_mem_take type 4)
          (type.colon_not_mem _ (by simp)) rfl (Int.not_le.mp hlong)
      have hversion : partBehind int 3 true type.text = some (some type.version) :=
        congrArg (fun parts ↦ parts.getD 5 none) hreads.service
      exact absurd (hoverflow.symm.trans hversion) (Option.some_ne_none _).symm
    refine ⟨?_, hlength⟩
    have hparts := (parts_eq type hlength).symm.trans hreads.service
    have hidentifier := Option.some.inj (List.cons.inj hparts).1
    by_contra hshort
    rw [if_neg (by omega)] at hidentifier
    exact absurd hidentifier (Option.some_ne_none _).symm
  · rintro ⟨hlong, hlength⟩
    have hsize : (type.text.length : ℤ) ≤ size.last :=
      Int.le_trans hlength (by decide : int.last ≤ size.last)
    have hparts : ∀ ix : IndexType, (type.text.length : ℤ) ≤ ix.last →
        [partTo ix 0 type.text, partBehind ix 0 false type.text, partBehind ix 1 false type.text,
          partBehind ix 2 false type.text, partTo ix 3 type.text, partBehind ix 3 true type.text] =
          type.parts := by
      intro ix hix
      have hone : 1 < type.identifier.length := hlong
      rw [parts_eq type hix, if_pos hone]
      rfl
    have hdevice : deviceTypeParts (some type.text) = type.parts := hparts size hsize
    have hservice : serviceTypeParts (some type.text) = type.parts := hparts int hlength
    exact ⟨hdevice, hservice, hdevice.trans hservice.symm⟩

/-- A device type whose identifier is one character. -/
def shortType : TypeFields where
  identifier := "u".toList
  urn := "schemas-upnp-org".toList
  kind := "device".toList
  type := "Light".toList
  version := "1".toList
  ne_nil := by decide
  colon_not_mem := by decide

/-- An identifier of one character is not found. -/
theorem not_reads_fields : ¬ ∀ type : TypeFields, ReadsFields type := by
  intro hall
  have hidentifier : deviceTypeGetIdentifier (some shortType.text) = some (some "u".toList) :=
    (List.cons.inj (hall shortType).device).1
  exact absurd hidentifier (by decide)

end Mupnp.Service
