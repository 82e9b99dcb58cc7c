import PolyglotTicketing.Gateway.Errors

/-!
# The error contract of the gateway

The public format of errors is a non-empty list of items, each with a text as its message, a text
as its code, at most a text as its field, and nothing else. `error_contract` says for which
exceptions `ApiErrorFilter` answers in this format, that it leaks nothing of a server error, and
that the items of a gRPC error come through.

* `Presentable`: the filter has something to say about the exception.
* `empty_errors`: an exception with an empty list of messages is answered with an empty list.
-/

namespace Gateway

/-- The names of the properties of an item. -/
def itemNames : List String := ["message", "code", "field"]

/-- An item in the public format. -/
structure Public (v : Value) : Prop where
  message : ∃ s, v.get "message" = .string s
  code : ∃ s, v.get "code" = .string s
  field : v.has "field" = true → ∃ s, v.get "field" = .string s
  only : ∀ name, v.has name = true → name ∈ itemNames

/-- A body in the public format. -/
structure ErrorResponse.WellFormed (body : ErrorResponse) : Prop where
  nonempty : body.errors ≠ []
  items : ∀ slot ∈ body.errors, ∃ v ∈ slot, Public v

/-- The filter finds a message in a response that has no error items. A list of messages has to hold
one, and a primitive value other than a text or `null` has no properties to look at. -/
def Worded (response : Value) : Prop :=
  match response with
  | .string _ => True
  | .null => True
  | response => response.acceptsIn = true ∧
      ∀ slots, response.get "message" = .array slots → ∃ s, some (.string s) ∈ slots

/-- The filter has something to say about the exception, and nothing to hide: the status is one of a
server error, or the items of the response have no properties of their own, or it has no items but
words. -/
def Presentable : Thrown → Prop
  | .value _ => True
  | .httpException response status _ =>
    status.Below 500 →
      match errorItems response with
      | some slots => ∀ slot ∈ slots, ∃ v ∈ slot, ∀ name, v.has name = true → name ∈ itemNames
      | none => Worded response

section Items

variable {item : ErrorItem} {v : Value}

/-- The properties of an item. -/
theorem ErrorItem.lookup (item : ErrorItem) (name : String) :
    item.toValue.properties.lookup name =
      if name = "message" then some (.string item.message)
      else if name = "code" then some (.string item.code)
      else if name = "field" then item.field.map .string
      else none := by
  have hne : ∀ key : String, name ≠ key → (name == key) = false :=
    fun _ h => beq_eq_false_iff_ne.mpr h
  have hrest : ((item.field.map fun field => ("field", Value.string field)).toList).lookup name =
      if name = "field" then item.field.map .string else none := by
    cases item.field with
    | none => simp
    | some field =>
      by_cases hfield : name = "field"
      · simp [hfield]
      · simp [List.lookup_cons, hne _ hfield, hfield]
  rw [← hrest, ErrorItem.toValue, Value.properties, List.cons_append, List.cons_append,
    List.nil_append, List.lookup_cons, List.lookup_cons]
  by_cases hmessage : name = "message"
  · simp [hmessage]
  · by_cases hcode : name = "code"
    · simp [hcode]
    · rw [hne _ hmessage, hne _ hcode, if_neg hmessage, if_neg hcode]

/-- An item is in the public format. -/
theorem ErrorItem.isPublic (item : ErrorItem) : Public item.toValue where
  message := ⟨item.message, by simp [Value.get, item.lookup]⟩
  code := ⟨item.code, by simp [Value.get, item.lookup]⟩
  field := by
    intro hfield
    cases hitem : item.field with
    | none => simp [Value.has, item.lookup, hitem] at hfield
    | some field => exact ⟨field, by simp [Value.get, item.lookup, hitem]⟩
  only := by
    intro name hname
    simp only [Value.has, item.lookup] at hname
    split at hname
    next h => simp [itemNames, h]
    next =>
      split at hname
      next h => simp [itemNames, h]
      next =>
        split at hname
        next h => simp [itemNames, h]
        next => simp at hname

/-- What the recognisers ask for. -/
theorem isErrorItem_iff : isErrorItem v = true ↔ v.isObject = true ∧
    (∃ s, v.get "message" = .string s) ∧ (∃ s, v.get "code" = .string s) ∧
      (v.has "field" = true → ∃ s, v.get "field" = .string s) := by
  simp only [isErrorItem, Bool.and_eq_true, Bool.or_eq_true, Bool.not_eq_true',
    Value.isString_iff]
  constructor
  · rintro ⟨⟨⟨⟨⟨hobject, -⟩, hmessage⟩, -⟩, hcode⟩, hfield⟩
    refine ⟨hobject, hmessage, hcode, fun h => ?_⟩
    exact hfield.resolve_left (by simp [h])
  · rintro ⟨hobject, hmessage, hcode, hfield⟩
    refine ⟨⟨⟨⟨⟨hobject, ?_⟩, hmessage⟩, ?_⟩, hcode⟩, ?_⟩
    · exact Value.has_of_isString (Value.isString_iff.mpr hmessage)
    · exact Value.has_of_isString (Value.isString_iff.mpr hcode)
    · by_cases h : v.has "field" = true
      · exact Or.inr (hfield h)
      · exact Or.inl (Bool.eq_false_iff.mpr h)

/-- An item in the public format is recognised. -/
theorem isErrorItem_toValue (item : ErrorItem) : isErrorItem item.toValue = true :=
  isErrorItem_iff.mpr ⟨rfl, item.isPublic.message, item.isPublic.code, item.isPublic.field⟩

/-- A recognised item is public if it has no other properties. -/
theorem public_iff (h : isErrorItem v = true) :
    Public v ↔ ∀ name, v.has name = true → name ∈ itemNames := by
  obtain ⟨-, hmessage, hcode, hfield⟩ := isErrorItem_iff.mp h
  exact ⟨Public.only, fun honly => ⟨hmessage, hcode, hfield, honly⟩⟩

/-- What `new ApiError` keeps of a recognised item. -/
theorem exists_item (h : isErrorItem v = true) :
    ∃ item : ErrorItem, ApiError.item v = item.toValue := by
  obtain ⟨-, ⟨message, hmessage⟩, ⟨code, hcode⟩, hfield⟩ := isErrorItem_iff.mp h
  by_cases hhas : v.has "field" = true
  · obtain ⟨field, hget⟩ := hfield hhas
    refine ⟨⟨message, code, some field⟩, ?_⟩
    simp [ApiError.item, ErrorItem.toValue, hmessage, hcode, hget]
  · have hget : v.get "field" = .undefined := Value.get_of_not_has (Bool.eq_false_iff.mpr hhas)
    refine ⟨⟨message, code, none⟩, ?_⟩
    simp [ApiError.item, ErrorItem.toValue, hmessage, hcode, hget]

/-- `new ApiError` keeps an item of the gateway. -/
theorem ApiError.item_toValue (item : ErrorItem) : ApiError.item item.toValue = item.toValue := by
  obtain ⟨message, code, field⟩ := item
  cases field with
  | none => rfl
  | some field => rfl

end Items

section Filter

variable {response : Value} {slots : List (Option Value)} {status : Number}

/-- What the recognisers find. -/
theorem errorItems_spec (h : errorItems response = some slots) :
    slots ≠ [] ∧ ∀ slot ∈ slots, ∀ v ∈ slot, isErrorItem v = true := by
  rw [errorItems] at h
  split at h
  next =>
    split at h
    next =>
      split at h
      next hslots =>
        obtain rfl := Option.some.inj h
        refine ⟨List.length_pos_iff.mp hslots.1, ?_⟩
        intro slot hslot v hv
        have hall := List.all_eq_true.mp hslots.2 slot hslot
        rw [Option.mem_def.mp hv] at hall
        exact hall
      next => cases h
    next => cases h
  next => cases h

/-- The response of an exception with items. -/
def itemsValue (items : List ErrorItem) : Value :=
  .object [("errors", .array (items.map fun item => some item.toValue))]

/-- They are found again. -/
theorem errorItems_itemsValue {items : List ErrorItem} (hitems : items ≠ []) :
    errorItems (itemsValue items) = some (items.map fun item => some item.toValue) := by
  have hall : (items.map fun item => some item.toValue).all
      (fun slot => slot.all isErrorItem) = true := by
    simp [isErrorItem_toValue]
  have hlength : 0 < (items.map fun item => some item.toValue).length := by
    rw [List.length_map]
    exact List.length_pos_iff.mpr hitems
  have hget : (itemsValue items).get "errors" =
      .array (items.map fun item => some item.toValue) := rfl
  rw [errorItems, if_pos (show ((itemsValue items).isObject && (itemsValue items).has "errors") =
    true from rfl), hget]
  exact if_pos ⟨hlength, hall⟩

/-- The answer to an exception with items. -/
theorem apiErrorFilter_itemsValue {items : List ErrorItem} (hitems : items ≠ [])
    (hstatus : status.Below 500) (properties : List (String × Value)) :
    apiErrorFilter (.httpException (itemsValue items) status properties) =
      some (status, ⟨items.map fun item => some item.toValue⟩) := by
  simp [apiErrorFilter, getHttpStatus, getErrorResponse, hstatus, errorItems_itemsValue hitems]

/-- The body for a status of 500 or more is in the public format. -/
theorem wellFormed_serverErrorResponse (status : Number) :
    (serverErrorResponse status).WellFormed where
  nonempty := by simp [serverErrorResponse]
  items := by
    intro slot hslot
    obtain rfl := List.mem_singleton.mp hslot
    exact ⟨_, rfl, ErrorItem.isPublic _⟩

/-- A list of messages makes a well-formed body unless it is empty. -/
theorem wellFormed_messages (messages : List String) (code : String) :
    (ErrorResponse.mk (messages.map fun message =>
      some (ErrorItem.toValue ⟨message, code, none⟩))).WellFormed ↔ messages ≠ [] := by
  constructor
  · rintro h rfl
    exact h.nonempty rfl
  · intro hne
    refine ⟨by simpa using hne, ?_⟩
    intro slot hslot
    obtain ⟨message, -, rfl⟩ := List.mem_map.mp hslot
    exact ⟨_, rfl, ErrorItem.isPublic _⟩

/-- Items that are recognised make a well-formed body unless they have other properties. -/
theorem wellFormed_items (h : errorItems response = some slots) :
    (ErrorResponse.mk slots).WellFormed ↔
      ∀ slot ∈ slots, ∃ v ∈ slot, ∀ name, v.has name = true → name ∈ itemNames := by
  obtain ⟨hne, hitems⟩ := errorItems_spec h
  constructor
  · intro hwell slot hslot
    obtain ⟨v, hv, hpublic⟩ := hwell.items slot hslot
    exact ⟨v, hv, hpublic.only⟩
  · refine fun honly => ⟨hne, fun slot hslot => ?_⟩
    obtain ⟨v, hv, hnames⟩ := honly slot hslot
    exact ⟨v, hv, (public_iff (hitems slot hslot v hv)).mpr hnames⟩

/-- Some slot of a list holds a text. -/
theorem texts_ne_nil_iff : texts slots ≠ [] ↔ ∃ s, some (.string s) ∈ slots := by
  constructor
  · intro hne
    obtain ⟨s, hs⟩ := List.exists_mem_of_ne_nil _ hne
    obtain ⟨slot, hslot, heq⟩ := List.mem_filterMap.mp hs
    split at heq
    next x => exact ⟨x, hslot⟩
    next => cases heq
  · rintro ⟨s, hs⟩
    exact List.ne_nil_of_mem (List.mem_filterMap.mpr ⟨_, hs, rfl⟩)

/-- The messages of a response with properties. -/
theorem wording_ne_nil_iff : wording response ≠ [] ↔
    ∀ slots, response.get "message" = .array slots → ∃ s, some (.string s) ∈ slots := by
  rw [wording]
  by_cases hhas : response.has "message" = true
  · rw [if_pos hhas]
    cases hget : response.get "message" with
    | array slots => simpa using texts_ne_nil_iff
    | _ => simp
  · rw [if_neg hhas, Value.get_of_not_has (Bool.eq_false_iff.mpr hhas)]
    simp

/-- The messages that the filter finds. -/
theorem getMessages_iff (response : Value) :
    (∃ messages, getMessages response = some messages ∧ messages ≠ []) ↔ Worded response := by
  cases response with
  | string s => simp [getMessages, Worded]
  | null => simp [getMessages, Worded]
  | _ => simp [getMessages, Worded, Value.acceptsIn, wording_ne_nil_iff]

/-- The filter answers in the public format exactly to the presentable exceptions. -/
theorem wellFormed_iff (exception : Thrown) :
    (∃ body, apiErrorFilter exception = some (getHttpStatus exception, body) ∧ body.WellFormed) ↔
      Presentable exception := by
  cases exception with
  -- Everything but an `HttpException` is answered with status 500.
  | value v =>
    exact iff_of_true ⟨_, rfl, wellFormed_serverErrorResponse _⟩ trivial
  | httpException response status properties =>
    by_cases hstatus : status.Below 500
    · cases hitems : errorItems response with
      -- A list of items is passed on as it is.
      | some slots =>
        simp [apiErrorFilter, getErrorResponse, getHttpStatus, Presentable, hstatus, hitems,
          wellFormed_items hitems]
      -- Messages become items, if there are any.
      | none =>
        have hmessages := getMessages_iff response
        simp only [Presentable, hstatus, hitems, true_implies, ← hmessages]
        constructor
        · rintro ⟨body, hbody, hwell⟩
          cases hfound : getMessages response with
          | none =>
            simp [apiErrorFilter, getErrorResponse, getHttpStatus, hstatus, hitems, hfound]
              at hbody
          | some messages =>
            simp only [apiErrorFilter, getErrorResponse, getHttpStatus, hstatus, hitems, hfound,
              if_true, Option.map_some, Option.some.injEq, Prod.mk.injEq, true_and] at hbody
            subst hbody
            exact ⟨messages, rfl, (wellFormed_messages _ _).mp hwell⟩
        · rintro ⟨messages, hfound, hne⟩
          refine ⟨_, ?_, (wellFormed_messages messages (getCodeForStatus status)).mpr hne⟩
          simp [apiErrorFilter, getErrorResponse, getHttpStatus, hstatus, hitems, hfound]
    · refine iff_of_true ⟨_, ?_, wellFormed_serverErrorResponse status⟩ fun h => absurd h hstatus
      simp [apiErrorFilter, getErrorResponse, getHttpStatus, hstatus]

end Filter

section Grpc

variable {parse : String → Option Json}

/-- A value of JSON that stands for an item, whatever else it has. -/
def Represents (j : Json) (item : ErrorItem) : Prop :=
  ∃ members, j = .object members ∧ members.lookup "message" = some (.string item.message) ∧
    members.lookup "code" = some (.string item.code) ∧
      members.lookup "field" = item.field.map .string

/-- A value of JSON that encodes a list of items. -/
def Encodes (j : Json) (items : List ErrorItem) : Prop :=
  ∃ members elements, j = .object members ∧ members.lookup "errors" = some (.array elements) ∧
    List.Forall₂ Represents elements items

/-- An item is recognised in what stands for it, and `new ApiError` keeps it. -/
theorem Represents.item {j : Json} {item : ErrorItem} (h : Represents j item) :
    isErrorItem j.toValue = true ∧ ApiError.item j.toValue = item.toValue := by
  obtain ⟨members, rfl, hmessage, hcode, hfield⟩ := h
  -- The properties of the value are the members of the object.
  have hlookup : ∀ name, (Json.object members).toValue.properties.lookup name =
      (members.lookup name).map Json.toValue := by
    intro name
    rw [Json.toValue, Value.properties, Json.lookup_toProperties]
  have hget : ∀ name s, members.lookup name = some (.string s) →
      (Json.object members).toValue.get name = .string s := by
    intro name s hname
    rw [Value.get, hlookup, hname, Option.map_some, Option.getD_some, Json.toValue]
  have hobject : (Json.object members).toValue.isObject = true := by
    rw [Json.toValue, Value.isObject]
  cases hitem : item.field with
  | none =>
    rw [hitem, Option.map_none] at hfield
    have hnone : (Json.object members).toValue.has "field" = false := by
      rw [Value.has, hlookup, hfield]
      rfl
    refine ⟨isErrorItem_iff.mpr ⟨hobject, ⟨_, hget _ _ hmessage⟩, ⟨_, hget _ _ hcode⟩, ?_⟩, ?_⟩
    · simp [hnone]
    · simp [ApiError.item, ErrorItem.toValue, hget _ _ hmessage, hget _ _ hcode, hitem,
        Value.get_of_not_has hnone]
  | some field =>
    rw [hitem, Option.map_some] at hfield
    refine ⟨isErrorItem_iff.mpr ⟨hobject, ⟨_, hget _ _ hmessage⟩, ⟨_, hget _ _ hcode⟩, ?_⟩, ?_⟩
    · exact fun _ => ⟨field, hget _ _ hfield⟩
    · simp [ApiError.item, ErrorItem.toValue, hget _ _ hmessage, hget _ _ hcode, hitem,
        hget _ _ hfield]

/-- What stands for a list of items is recognised, and `new ApiError` keeps the list. -/
theorem Encodes.errorItems {j : Json} {items : List ErrorItem} (h : Encodes j items)
    (hitems : items ≠ []) : ∃ slots, errorItems j.toValue = some slots ∧
      slots.map (Option.map ApiError.item) = items.map fun item => some item.toValue := by
  obtain ⟨members, elements, rfl, herrors, hall⟩ := h
  -- Element by element, `new ApiError` keeps the items, and the elements are recognised.
  have hkept : (Json.toSlots elements).map (Option.map ApiError.item) =
      items.map fun item => some item.toValue := by
    clear herrors hitems
    induction hall with
    | nil => rfl
    | cons hitem hrest ih =>
      rw [Json.toSlots, List.map_cons, List.map_cons, ih, Option.map_some, hitem.item.2]
  have hrecognised : (Json.toSlots elements).all (fun slot => slot.all isErrorItem) = true := by
    clear herrors hitems hkept
    induction hall with
    | nil => rfl
    | cons hitem hrest ih => simp [Json.toSlots, hitem.item.1, ih]
  have hlength : 0 < (Json.toSlots elements).length := by
    have hlengths := congrArg List.length hkept
    rw [List.length_map, List.length_map] at hlengths
    rw [hlengths]
    exact List.length_pos_iff.mpr hitems
  refine ⟨Json.toSlots elements, ?_, hkept⟩
  simp only [Gateway.errorItems, Json.toValue, Value.isObject, Value.has, Value.get,
    Value.properties, Json.lookup_toProperties, herrors, Option.map_some, Option.isSome_some,
    Bool.and_self, if_true, Option.getD_some]
  exact if_pos ⟨hlength, hrecognised⟩

/-- What `new ApiError` keeps of the items that are recognised in JSON. -/
theorem exists_items {j : Json} {slots : List (Option Value)}
    (h : errorItems j.toValue = some slots) : ∃ items : List ErrorItem, items ≠ [] ∧
      slots.map (Option.map ApiError.item) = items.map fun item => some item.toValue := by
  obtain ⟨hne, hrecognised⟩ := errorItems_spec h
  -- JSON has no holes: the slots are the elements of an array.
  have hslots : ∃ elements, slots = Json.toSlots elements := by
    rw [Gateway.errorItems] at h
    split at h
    next hhas =>
      split at h
      next found herrors =>
        split at h
        next =>
          obtain rfl := Option.some.inj h
          cases j with
          | object members =>
            rw [Json.toValue, Value.get, Value.properties, Json.lookup_toProperties] at herrors
            cases hmember : members.lookup "errors" with
            | none => simp [hmember] at herrors
            | some element =>
              rw [hmember, Option.map_some, Option.getD_some] at herrors
              cases element with
              | array elements => exact ⟨elements, by simpa [Json.toValue] using herrors.symm⟩
              | _ => simp [Json.toValue] at herrors
          | _ => simp [Json.toValue, Value.get, Value.properties] at herrors
        next => cases h
      next => cases h
    next => cases h
  obtain ⟨elements, rfl⟩ := hslots
  clear h
  induction elements with
  | nil => exact absurd rfl hne
  | cons element elements ih =>
    obtain ⟨item, hitem⟩ := exists_item (hrecognised _ (List.mem_cons_self ..) _ rfl)
    cases elements with
    | nil => exact ⟨[item], by simp, by simp [Json.toSlots, hitem]⟩
    | cons next rest =>
      obtain ⟨items, -, hitems⟩ := ih (by simp [Json.toSlots]) fun slot hslot v hv =>
        hrecognised slot (List.mem_cons_of_mem _ hslot) v hv
      refine ⟨item :: items, by simp, ?_⟩
      rw [Json.toSlots, List.map_cons, List.map_cons, hitems, Option.map_some, hitem]

/-- Whatever a call of a service has thrown, `throwGatewayGrpcError` throws an exception with
items. -/
theorem throwGatewayGrpcError_cases (error : Thrown) (invalidArgumentError : Option ErrorItem) :
    ∃ status items, items ≠ [] ∧ throwGatewayGrpcError parse error invalidArgumentError =
      .httpException (itemsValue items) status [] := by
  -- All other exceptions are made of one item.
  have hsingle : ∀ status (item : ErrorItem), ApiError status [some item.toValue] =
      .httpException (itemsValue [item]) status [] := by
    intro status item
    rw [ApiError, itemsValue, List.map_singleton, Option.map_some, ApiError.item_toValue,
      List.map_singleton]
  rw [throwGatewayGrpcError]
  split
  next code hcode =>
    split
    next slots hslots =>
      -- The details are JSON with items.
      rw [getGrpcErrorResponse] at hslots
      split at hslots
      next details hdetails =>
        obtain ⟨parsed, -, hparsed⟩ := Option.bind_eq_some_iff.mp hslots
        obtain ⟨items, hitems, hkept⟩ := exists_items hparsed
        exact ⟨_, items, hitems, by rw [ApiError, itemsValue, hkept]⟩
      next => cases hslots
    next item hnone =>
      split
      next => exact ⟨_, [item], by simp, hsingle _ item⟩
      next => exact ⟨_, [_], by simp, hsingle _ _⟩
    next => exact ⟨_, [_], by simp, hsingle _ _⟩
  next => exact ⟨_, [_], by simp, hsingle _ _⟩

/-- The items that the details of a gRPC error encode come through. -/
theorem throwGatewayGrpcError_encodes {error : Thrown} {code : Number} {details : String} {j : Json}
    {items : List ErrorItem} (hcode : isGrpcStatusError error.toValue = some code)
    (hdetails : error.toValue.get "details" = .string details) (hparse : parse details = some j)
    (hencodes : Encodes j items) (hitems : items ≠ [])
    (invalidArgumentError : Option ErrorItem) :
    throwGatewayGrpcError parse error invalidArgumentError =
      .httpException (itemsValue items) (httpStatusFromGrpcCode code) [] := by
  obtain ⟨slots, hslots, hkept⟩ := hencodes.errorItems hitems
  have hresponse : getGrpcErrorResponse parse error.toValue = some slots := by
    rw [getGrpcErrorResponse, hdetails]
    simp [hparse, hslots]
  rw [throwGatewayGrpcError, hcode, hresponse]
  simp [ApiError, itemsValue, hkept]

end Grpc

/-- The error contract, with the exact condition of its first part.

The filter answers in the public format if and only if the exception is presentable, as all are that
`throwGatewayGrpcError` throws. For a status of 500 or more, or one that is not a number, the answer
depends on the status only. And if the details of a gRPC error encode a list of items and its code
maps to a status below 500, the answer has just these items. -/
theorem error_contract (parse : String → Option Json) :
    (∀ exception,
      (∃ body, apiErrorFilter exception = some (getHttpStatus exception, body) ∧
        body.WellFormed) ↔ Presentable exception) ∧
    (∀ error invalidArgumentError,
      Presentable (throwGatewayGrpcError parse error invalidArgumentError)) ∧
    (∀ exception₁ exception₂, getHttpStatus exception₁ = getHttpStatus exception₂ →
      ¬(getHttpStatus exception₁).Below 500 →
        apiErrorFilter exception₁ = apiErrorFilter exception₂) ∧
    ∀ error code details j items invalidArgumentError,
      isGrpcStatusError error.toValue = some code →
      error.toValue.get "details" = .string details → parse details = some j →
      Encodes j items → items ≠ [] → (httpStatusFromGrpcCode code).Below 500 →
        apiErrorFilter (throwGatewayGrpcError parse error invalidArgumentError) =
          some (httpStatusFromGrpcCode code, ⟨items.map fun item => some item.toValue⟩) := by
  refine ⟨wellFormed_iff, ?_, ?_, ?_⟩
  · intro error invalidArgumentError
    obtain ⟨status, items, hitems, hthrown⟩ :=
      @throwGatewayGrpcError_cases parse error invalidArgumentError
    rw [hthrown, Presentable, errorItems_itemsValue hitems]
    intro _ slot hslot
    obtain ⟨item, -, rfl⟩ := List.mem_map.mp hslot
    exact ⟨_, rfl, item.isPublic.only⟩
  · intro exception₁ exception₂ hsame hstatus
    -- The answer shows nothing of the exception but the status.
    have hanswer : ∀ exception, ¬(getHttpStatus exception).Below 500 → apiErrorFilter exception =
        some (getHttpStatus exception, serverErrorResponse (getHttpStatus exception)) := by
      intro exception hlarge
      cases exception with
      | value v => rfl
      | httpException response status properties =>
        rw [getHttpStatus] at hlarge
        simp [apiErrorFilter, getHttpStatus, getErrorResponse, hlarge]
    rw [hanswer _ hstatus, hanswer _ (hsame ▸ hstatus), hsame]
  · intro error code details j items invalidArgumentError hcode hdetails hparse hencodes hitems
      hstatus
    rw [throwGatewayGrpcError_encodes hcode hdetails hparse hencodes hitems]
    exact apiErrorFilter_itemsValue hitems hstatus []

/-- `new BadRequestException([])`, whose list of messages is empty. -/
def emptyMessages : Thrown :=
  .httpException (.object [("message", .array []), ("error", .string "Bad Request"),
    ("statusCode", .number (.finite 400))]) (.finite 400) []

/-- It is answered with an empty list of errors. -/
theorem empty_errors : apiErrorFilter emptyMessages = some (.finite 400, ⟨[]⟩) ∧
    ¬(⟨[]⟩ : ErrorResponse).WellFormed := by
  exact ⟨rfl, fun h => h.nonempty rfl⟩

end Gateway
