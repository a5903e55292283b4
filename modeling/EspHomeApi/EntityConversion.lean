import EspHomeApi.Collector

/-!
# From listing responses to entities

`request_entities_and_services` converts each collected response by the overload of
`pb2entity_info` for its kind. All but one of the overloads copy the identity of the entity; the
one for user services answers with a default `EntityInfo`. The list therefore carries the keys and
names of the responses exactly when every service in it has the default key and name.
-/

namespace EspHomeApi

variable {M : Type}

/-- A `float`, by its bit pattern. -/
abbrev FloatBits := UInt32

/-- The category of an entity. -/
inductive EntityCategory
  | none
  | config
  | diagnostic
  deriving DecidableEq

/-- The colour mode of a light. -/
inductive ColorMode
  | unknown
  | onOff
  | brightness
  | white
  | colorTemperature
  | coldWarmWhite
  | rgb
  | rgbWhite
  | rgbColorTemperature
  | rgbColdWarmWhite
  deriving DecidableEq

/-- What the client tells about an entity. -/
structure EntityInfo where
  objectId : Bytes := []
  key : UInt32 := 0
  name : Bytes := []
  uniqueId : Bytes := []
  disabledByDefault : Bool := false
  icon : Bytes := []
  category : EntityCategory := .none
  deriving DecidableEq

/-- What the client tells about a light. -/
structure LightEntityInfo extends EntityInfo where
  minMireds : FloatBits
  maxMireds : FloatBits
  supportedColorModes : List ColorMode
  effects : List Bytes
  deriving DecidableEq

/-- An entry of the list of entities. -/
inductive EntityInfoVariant
  | entityInfo (info : EntityInfo)
  | lightEntityInfo (info : LightEntityInfo)
  deriving DecidableEq

/-- The part of an entry that every entity has. -/
def EntityInfoVariant.base : EntityInfoVariant → EntityInfo
  | .entityInfo info => info
  | .lightEntityInfo info => info.toEntityInfo

/-- The getters of the listing responses; enumerators are numbers, as any may be received. -/
structure EntityGetters (M : Type) where
  objectId : M → Bytes
  key : M → UInt32
  name : M → Bytes
  uniqueId : M → Bytes
  disabledByDefault : M → Bool
  icon : M → Bytes
  entityCategory : M → ℤ
  minMireds : M → FloatBits
  maxMireds : M → FloatBits
  effects : M → List Bytes
  supportedColorModes : M → List ℤ

/-- A collected response: its kind, which chooses the overload, and the message. -/
structure EntityResponse (M : Type) where
  kind : EntityKind
  message : M

/-- The switch over the categories of the protocol. -/
def kMapEntityCategory : ℤ → EntityCategory
  | 0 => .none
  | 1 => .config
  | 2 => .diagnostic
  | _ => .none

/-- `pb2color_mode`. -/
def pb2colorMode : ℤ → ColorMode
  | 0 => .unknown
  | 1 => .onOff
  | 2 => .brightness
  | 7 => .white
  | 11 => .colorTemperature
  | 19 => .coldWarmWhite
  | 35 => .rgb
  | 39 => .rgbWhite
  | 47 => .rgbColorTemperature
  | 51 => .rgbColdWarmWhite
  | _ => .unknown

variable (G : EntityGetters M)

/-- `pb2entity_info_base`. -/
def pb2entityInfoBase (entity : M) : EntityInfo where
  objectId := G.objectId entity
  key := G.key entity
  name := G.name entity
  uniqueId := G.uniqueId entity
  disabledByDefault := G.disabledByDefault entity
  icon := G.icon entity
  category := kMapEntityCategory (G.entityCategory entity)

/-- `pb2entity_info` for a light. -/
def pb2lightEntityInfo (light : M) : LightEntityInfo where
  toEntityInfo := pb2entityInfoBase G light
  minMireds := G.minMireds light
  maxMireds := G.maxMireds light
  effects := G.effects light
  supportedColorModes := (G.supportedColorModes light).map pb2colorMode

/-- The overloads of `pb2entity_info`. The one for services looks at nothing. -/
def pb2entityInfo (kind : EntityKind) (response : M) : EntityInfoVariant :=
  match kind with
  | .light => .lightEntityInfo (pb2lightEntityInfo G response)
  | .services => .entityInfo {}
  | .alarmControlPanel | .binarySensor | .button | .camera | .climate | .cover | .date | .dateTime
  | .event | .fan | .lock | .mediaPlayer | .number | .select | .sensor | .switch | .text
  | .textSensor | .time | .update | .valve => .entityInfo (pb2entityInfoBase G response)

/-- The list that `request_entities_and_services` makes of the collected responses. -/
def entityInfoList (responses : List (EntityResponse M)) : List EntityInfoVariant :=
  responses.map fun response => pb2entityInfo G response.kind response.message

/-- The entry carries the key and the name of the response, and the effects and colour modes of a
light. -/
structure Carries (response : EntityResponse M) (entry : EntityInfoVariant) : Prop where
  key_eq : entry.base.key = G.key response.message
  name_eq : entry.base.name = G.name response.message
  light : response.kind = .light → ∃ info, entry = .lightEntityInfo info ∧
    info.effects = G.effects response.message ∧
    info.supportedColorModes = (G.supportedColorModes response.message).map pb2colorMode

/-- The list has an entry for each response, in order, that carries it, and no two responses with
different keys have equal entries. -/
structure FaithfulList (responses : List (EntityResponse M)) (list : List EntityInfoVariant) :
    Prop where
  carries : List.Forall₂ (Carries G) responses list
  distinct : ∀ (i j : ℕ) (first second : EntityResponse M), responses[i]? = some first →
    responses[j]? = some second → G.key first.message ≠ G.key second.message → list[i]? ≠ list[j]?

/-- The service has neither a key nor a name, so that there is nothing to forget. -/
def NamelessServices (responses : List (EntityResponse M)) : Prop :=
  ∀ response ∈ responses, response.kind = .services →
    G.key response.message = 0 ∧ G.name response.message = []

/-- All overloads but the one for services start from the common part. -/
theorem base_pb2entityInfo {kind : EntityKind} (hkind : kind ≠ .services) (response : M) :
    (pb2entityInfo G kind response).base = pb2entityInfoBase G response := by
  cases kind with
  | services => exact absurd rfl hkind
  | _ => rfl

/-- An overload carries its response unless it is the one for services. -/
theorem carries_pb2entityInfo_iff (response : EntityResponse M) :
    Carries G response (pb2entityInfo G response.kind response.message) ↔
      (response.kind = .services → G.key response.message = 0 ∧ G.name response.message = []) := by
  obtain ⟨kind, message⟩ := response
  by_cases hkind : kind = .services
  · subst hkind
    constructor
    · intro hcarries _
      exact ⟨hcarries.key_eq.symm, hcarries.name_eq.symm⟩
    · intro hnameless
      obtain ⟨hkey, hname⟩ := hnameless rfl
      exact ⟨hkey.symm, hname.symm, fun hlight => by simp at hlight⟩
  · constructor
    · intro _ hservices
      exact absurd hservices hkind
    · intro _
      have hbase := base_pb2entityInfo G hkind message
      refine ⟨congrArg EntityInfo.key hbase, congrArg EntityInfo.name hbase, ?_⟩
      rintro rfl
      exact ⟨pb2lightEntityInfo G message, rfl, rfl, rfl⟩

/-- Entries that carry responses with different keys differ. -/
theorem ne_of_carries {first second : EntityResponse M} {entry other : EntityInfoVariant}
    (hfirst : Carries G first entry) (hsecond : Carries G second other)
    (hkey : G.key first.message ≠ G.key second.message) : entry ≠ other := by
  intro hsame
  rw [← hfirst.key_eq, ← hsecond.key_eq, hsame] at hkey
  exact hkey rfl

/-- The list of entities is faithful exactly when every service in it is without key and name. -/
theorem entityInfoList_faithful_iff (G : EntityGetters M) (responses : List (EntityResponse M)) :
    FaithfulList G responses (entityInfoList G responses) ↔ NamelessServices G responses := by
  have hcarries : List.Forall₂ (Carries G) responses (entityInfoList G responses) ↔
      NamelessServices G responses := by
    rw [entityInfoList, List.forall₂_map_right_iff, List.forall₂_same]
    exact forall₂_congr fun response _ => carries_pb2entityInfo_iff G response
  constructor
  · intro hfaithful
    exact hcarries.mp hfaithful.carries
  · intro hnameless
    refine ⟨hcarries.mpr hnameless, fun i j first second hi hj hkey hsame => ?_⟩
    have hentry (k : ℕ) (response : EntityResponse M) (hk : responses[k]? = some response) :
        (entityInfoList G responses)[k]? =
          some (pb2entityInfo G response.kind response.message) := by
      rw [entityInfoList, List.getElem?_map, hk, Option.map_some]
    have hcarried (k : ℕ) (response : EntityResponse M) (hk : responses[k]? = some response) :
        Carries G response (pb2entityInfo G response.kind response.message) :=
      (carries_pb2entityInfo_iff G response).mpr (hnameless response (List.mem_of_getElem? hk))
    rw [hentry i first hi, hentry j second hj, Option.some.injEq] at hsame
    exact ne_of_carries G (hcarried i first hi) (hcarried j second hj) hkey hsame

/-- All strings under a field number, in order. -/
def WireMessage.getStrings (number : ℕ) (message : WireMessage) : List Bytes :=
  message.fields.filterMap fun field =>
    match field.value with
    | .len text => if field.number = number then some text else none
    | _ => none

/-- The numbers in the bytes of a packed field. -/
def unpack : ℕ → Bytes → List ℕ
  | 0, _ => []
  | fuel + 1, bytes =>
    match Varint.read bytes with
    | some (n, rest) => n :: unpack fuel rest
    | none => []

/-- The getters on wire fields, with the field numbers of lights and services. -/
def wireEntityGetters : EntityGetters WireMessage where
  objectId := WireMessage.getString 1
  key := WireMessage.getFixed32 2
  name message :=
    if message.type = .listEntitiesResponse .services then message.getString 1
    else message.getString 3
  uniqueId := WireMessage.getString 4
  disabledByDefault message := message.getNumber 13 ≠ 0
  icon := WireMessage.getString 14
  entityCategory message := message.getNumber 15
  minMireds := WireMessage.getFixed32 9
  maxMireds := WireMessage.getFixed32 10
  effects := WireMessage.getStrings 11
  supportedColorModes message :=
    (message.getStrings 12).flatMap fun bytes => (unpack bytes.length bytes).map Int.ofNat

/-- A user service with a key. -/
def wireService (key : UInt8) : EntityResponse WireMessage :=
  ⟨.services, ⟨.listEntitiesResponse .services,
    [⟨2, .fixed32 [key, 0, 0, 0], by simp [WireFormat.Value.Fits]⟩]⟩⟩

/-- Two services with the keys 1 and 2 become equal entries. -/
theorem not_faithfulList_two_services :
    ¬ FaithfulList wireEntityGetters [wireService 1, wireService 2]
      (entityInfoList wireEntityGetters [wireService 1, wireService 2]) := by
  intro hfaithful
  exact hfaithful.distinct 0 1 (wireService 1) (wireService 2) rfl rfl (by decide) rfl

/-- The collected messages that are listing responses, with their kinds. -/
def entityResponses (C : Messages M) (messages : List M) : List (EntityResponse M) :=
  messages.filterMap fun message =>
    match C.descriptor message with
    | .listEntitiesResponse kind => some ⟨kind, message⟩
    | _ => none

/-- What the conversion makes of a collected variant. To dereference the null pointer would be
undefined behaviour. -/
def visitVariant : Variant M → Option EntityInfoVariant
  | ⟨.listEntitiesResponse kind, some message⟩ => some (pb2entityInfo G kind message)
  | _ => none

/-- Listing responses are the ones that are collected, whatever their kind. -/
theorem mem_entityTypes_iff (type : MessageType) :
    type ∈ entityTypes ↔ ∃ kind, type = .listEntitiesResponse kind := by
  constructor
  · intro hmem
    obtain ⟨kind, -, hkind⟩ := List.mem_map.mp hmem
    exact ⟨kind, hkind.symm⟩
  · rintro ⟨kind, rfl⟩
    apply List.mem_map_of_mem
    cases kind <;> decide

/-- The list of entities is made of the listing responses among the messages that completed the
handlers, and no null pointer is dereferenced for it. -/
theorem visit_collected (C : Messages M) (messages : List M) :
    (collected C entityTypes messages).mapM (visitVariant G) =
      some (entityInfoList G (entityResponses C messages)) := by
  induction messages with
  | nil => rfl
  | cons message messages ih =>
    by_cases hmem : C.descriptor message ∈ entityTypes
    · obtain ⟨kind, hkind⟩ := (mem_entityTypes_iff _).mp hmem
      have hcollected : collected C entityTypes (message :: messages) =
          ⟨.listEntitiesResponse kind, some message⟩ :: collected C entityTypes messages := by
        rw [collected, List.filter_cons_of_pos (by simpa using hmem), List.map_cons, hkind]
        rfl
      have hresponses : entityResponses C (message :: messages) =
          ⟨kind, message⟩ :: entityResponses C messages := by
        rw [entityResponses, List.filterMap_cons, hkind]
        rfl
      rw [hcollected, hresponses, List.mapM_cons, ih]
      rfl
    · have hcollected : collected C entityTypes (message :: messages) =
          collected C entityTypes messages := by
        rw [collected, List.filter_cons_of_neg (by simpa using hmem)]
        rfl
      have hresponses : entityResponses C (message :: messages) = entityResponses C messages := by
        rw [entityResponses, List.filterMap_cons]
        split
        · rfl
        · rename_i response hsome
          split at hsome
          · rename_i kind hkind
            exact absurd ((mem_entityTypes_iff _).mpr ⟨kind, hkind⟩) hmem
          · simp at hsome
      rw [hcollected, hresponses, ih]

end EspHomeApi
