import StabsImport.Proofs.Readers

/-!
# Descriptors that mean the same

Enumerations, composites and pointers have two spellings each: a descriptor that says all, or one
that leaves a choice to a flag. Whichever nodes of a document are spelled the other way, wherever
they stand in it, the document is read the same, or refused for the same fault. Each reader is
shown to make the same of both spellings if the readers below it do; levels follow by induction on
the room. Main statement: `readBytes_respell`.
-/

namespace StabsImport.Document

/-! ## Respelling -/

/-- A step from a value to a part of it. -/
inductive Step where
  | field (key : String)
  | item (index : Nat)
  deriving DecidableEq, Repr

/-- Where a part stands in a value. -/
abbrev Position := List Step

/-- The fields that hold a node. -/
def nodeKeys : List String :=
  ["element_type", "underlying_type", "type", "return_type", "value_type", "class_type",
   "member_type"]

/-- The fields that hold nodes in a list, or base classes, which hold one each. -/
def listKeys : List String :=
  ["locals", "parameters", "base_classes", "fields", "member_functions", "functions", "globals",
   "files", "deduplicated_types"]

/-- A descriptor that leaves a choice to a flag, and the flag. -/
def flagged (descriptor flag : String) (b : Bool) (fields : List (String × Json)) :
    List (String × Json) :=
  Json.setField flag (.bool b) (Json.setField "descriptor" (.text descriptor) fields)

/-- The fields of a node under the other descriptor for the same, if there is one. -/
def renamed (fields : List (String × Json)) : List (String × Json) :=
  match fields.lookup "descriptor" with
  | some (.text "enum") => Json.setField "descriptor" (.text "inline_enum") fields
  | some (.text "struct") => flagged "inline_struct_or_union" "is_struct" true fields
  | some (.text "union") => flagged "inline_struct_or_union" "is_struct" false fields
  | some (.text "pointer") => flagged "pointer_or_reference" "is_pointer" true fields
  | some (.text "reference") => flagged "pointer_or_reference" "is_pointer" false fields
  | _ => fields

mutual

/-- A node with the chosen ones of the nodes in it, itself included, under their other names. -/
def respell (chosen : Position → Bool) : Json → Json
  | .object fields =>
      .object <|
        if chosen [] then renamed (respellFields chosen fields) else respellFields chosen fields
  | v => v

def respellList (chosen : Position → Bool) : Json → Json
  | .list xs => .list (respellItems chosen 0 xs)
  | v => v

def respellItems (chosen : Position → Bool) (index : Nat) : List Json → List Json
  | [] => []
  | x :: xs =>
      respell (fun p => chosen (.item index :: p)) x :: respellItems chosen (index + 1) xs

def respellFields (chosen : Position → Bool) :
    List (String × Json) → List (String × Json)
  | [] => []
  | (key, v) :: rest =>
      let below := fun p => chosen (.field key :: p)
      let part :=
        if nodeKeys.contains key then respell below v
        else if listKeys.contains key then respellList below v
        else v
      (key, part) :: respellFields chosen rest

end

/-- A part of an object, by the key it stands under. -/
def respellPart (chosen : Position → Bool) (key : String) (v : Json) : Json :=
  if nodeKeys.contains key then respell (fun p => chosen (.field key :: p)) v
  else if listKeys.contains key then respellList (fun p => chosen (.field key :: p)) v
  else v

theorem lookup_cons_ite (key k : String) (v : Json) (rest : List (String × Json)) :
    List.lookup key ((k, v) :: rest) = if key = k then some v else rest.lookup key := by
  rw [List.lookup_cons]
  by_cases hk : key = k
  · rw [if_pos hk, beq_iff_eq.mpr hk]
  · rw [if_neg hk, beq_eq_false_iff_ne.mpr hk]

theorem lookup_respellFields (chosen : Position → Bool) (key : String) :
    (fields : List (String × Json)) →
      (respellFields chosen fields).lookup key = (fields.lookup key).map (respellPart chosen key)
  | [] => by
      rw [respellFields]
      rfl
  | (k, v) :: rest => by
      rw [respellFields, lookup_cons_ite, lookup_cons_ite, lookup_respellFields chosen key rest]
      split
      · next hk =>
          rw [hk]
          rfl
      · rfl

theorem lookup_setField (k key : String) (v : Json) : (fields : List (String × Json)) →
    (Json.setField k v fields).lookup key = if key = k then some v else fields.lookup key
  | [] => lookup_cons_ite key k v []
  | (l, w) :: rest => by
      rw [Json.setField]
      by_cases hl : l = k
      · subst hl
        rw [if_pos rfl, lookup_cons_ite, lookup_cons_ite]
        split <;> rfl
      · rw [if_neg hl, lookup_cons_ite, lookup_cons_ite, lookup_setField k key v rest]
        by_cases hk : key = l
        · rw [if_pos hk, if_pos hk, if_neg fun hkey => hl (hk.symm.trans hkey)]
        · rw [if_neg hk, if_neg hk]

theorem lookup_flagged (descriptor flag key : String) (b : Bool) (fields : List (String × Json)) :
    (flagged descriptor flag b fields).lookup key =
      if key = flag then some (.bool b)
      else if key = "descriptor" then some (.text descriptor)
      else fields.lookup key := by
  rw [flagged, lookup_setField, lookup_setField]

/-- The fields that a spelling consists of. -/
def spellingKeys : List String := ["descriptor", "is_struct", "is_pointer"]

/-- How the fields of one spelling of a node and of the other tell its descriptor. -/
inductive Spelling (fields fields' : List (String × Json)) : Prop where
  | same : (∀ key ∈ spellingKeys, fields'.lookup key = fields.lookup key) → Spelling fields fields'
  | enumeration : fields.lookup "descriptor" = some (.text "enum") →
      fields'.lookup "descriptor" = some (.text "inline_enum") → Spelling fields fields'
  | composite (isRecord : Bool) :
      fields.lookup "descriptor" = some (.text (if isRecord then "struct" else "union")) →
      fields'.lookup "descriptor" = some (.text "inline_struct_or_union") →
      fields'.lookup "is_struct" = some (.bool isRecord) → Spelling fields fields'
  | pointer (isPointer : Bool) :
      fields.lookup "descriptor" = some (.text (if isPointer then "pointer" else "reference")) →
      fields'.lookup "descriptor" = some (.text "pointer_or_reference") →
      fields'.lookup "is_pointer" = some (.bool isPointer) → Spelling fields fields'

/-- The fields of an object, and those of the object respelled. -/
structure Spelled (chosen : Position → Bool) (fields fields' : List (String × Json)) : Prop where
  spelling : Spelling fields fields'
  part : ∀ {key : String}, spellingKeys.contains key = false →
    fields'.lookup key = (fields.lookup key).map (respellPart chosen key)

theorem lookup_renamed (fields : List (String × Json)) {key : String}
    (other : spellingKeys.contains key = false) :
    (renamed fields).lookup key = fields.lookup key := by
  have others : key ≠ "descriptor" ∧ key ≠ "is_struct" ∧ key ≠ "is_pointer" := by
    simpa [spellingKeys] using other
  unfold renamed
  split <;> simp [lookup_flagged, lookup_setField, others]

theorem spelling_renamed (fields : List (String × Json)) : Spelling fields (renamed fields) := by
  unfold renamed
  split
  · next h => exact .enumeration h (lookup_setField ..)
  · next h => exact .composite true h (lookup_flagged ..) (lookup_flagged ..)
  · next h => exact .composite false h (lookup_flagged ..) (lookup_flagged ..)
  · next h => exact .pointer true h (lookup_flagged ..) (lookup_flagged ..)
  · next h => exact .pointer false h (lookup_flagged ..) (lookup_flagged ..)
  · exact .same fun _ _ => rfl

theorem Spelling.of_same {fields inner fields' : List (String × Json)}
    (h : Spelling inner fields')
    (same : ∀ key ∈ spellingKeys, inner.lookup key = fields.lookup key) :
    Spelling fields fields' := by
  have descriptor := same "descriptor" (by decide)
  cases h with
  | same h => exact .same fun key hkey => (h key hkey).trans (same key hkey)
  | enumeration h h' => exact .enumeration (descriptor ▸ h) h'
  | composite isRecord h h' flag => exact .composite isRecord (descriptor ▸ h) h' flag
  | pointer isPointer h h' flag => exact .pointer isPointer (descriptor ▸ h) h' flag

theorem respellPart_spelling (chosen : Position → Bool) {key : String} (h : key ∈ spellingKeys)
    (v : Json) : respellPart chosen key v = v := by
  simp only [spellingKeys, List.mem_cons, List.not_mem_nil, or_false] at h
  rcases h with rfl | rfl | rfl <;> rfl

/-- What a spelling consists of is no node, so it stays when those below are respelled. -/
theorem lookup_spelling (chosen : Position → Bool) (fields : List (String × Json)) {key : String}
    (h : key ∈ spellingKeys) : (respellFields chosen fields).lookup key = fields.lookup key := by
  rw [lookup_respellFields]
  cases fields.lookup key with
  | none => rfl
  | some v => exact congrArg some (respellPart_spelling chosen h v)

theorem respell_object (chosen : Position → Bool) (fields : List (String × Json)) :
    ∃ fields', respell chosen (.object fields) = .object fields' ∧
      Spelled chosen fields fields' := by
  have same : ∀ key ∈ spellingKeys, (respellFields chosen fields).lookup key = fields.lookup key :=
    fun _ => lookup_spelling chosen fields
  rw [respell]
  split
  · refine ⟨_, rfl, (spelling_renamed _).of_same same, fun other => ?_⟩
    rw [lookup_renamed _ other, lookup_respellFields]
  · exact ⟨_, rfl, .same same, fun _ => lookup_respellFields chosen _ fields⟩

theorem respell_of_stray {chosen : Position → Bool} {v : Json}
    (hv : ∀ fields, v ≠ .object fields) : respell chosen v = v := by
  cases v with
  | object fields => exact absurd rfl (hv fields)
  | _ =>
      rw [respell]
      exact hv

theorem eq_object_or_ne (v : Json) :
    (∃ fields, v = .object fields) ∨ ∀ fields, v ≠ .object fields := by
  cases v with
  | object fields => exact .inl ⟨fields, rfl⟩
  | _ =>
      refine .inr fun fields h => ?_
      cases h

/-! ## Readers of both spellings -/

/-- Two readers read the same from what is below an object and from what is below the object
respelled. -/
def SameBelow {α : Type} (fields fields' : List (String × Json)) (read read' : Json → Reading α) :
    Prop :=
  ∀ x chosen, Inside x (.object fields) → Inside (respell chosen x) (.object fields') →
    read' (respell chosen x) = read x

/-- Whether a field is read as it is, in every spelling. -/
def isPlain (key : String) : Bool := !(spellingKeys ++ nodeKeys ++ listKeys).contains key

theorem ok_bind {α β : Type} (a : α) (f : α → Reading β) :
    (liftM (Except.ok a : Taken α) >>= f) = f a := rfl

/-- What follows a failure does not matter. -/
theorem fail_bind {α β : Type} (e : Mismatch) (f g : α → Reading β) :
    (fail e >>= f) = (fail e >>= g) := rfl

theorem error_bind {α β : Type} (e : Mismatch) (f g : α → Reading β) :
    (liftM (Except.error e : Taken α) >>= f) = (liftM (Except.error e : Taken α) >>= g) := rfl

section Items

variable {α : Type} {read read' : Json → Reading α}

theorem readEach_congr {xs : List Json} (h : ∀ x ∈ xs, read' x = read x) :
    readEach read' xs = readEach read xs := by
  induction xs with
  | nil => rfl
  | cons x xs ih =>
      rw [readEach, readEach, h x List.mem_cons_self,
        ih fun y hy => h y (List.mem_cons_of_mem _ hy)]

theorem readEach_respellItems {xs : List Json} {chosen : Position → Bool} (index : Nat)
    (h : ∀ x ∈ xs, ∀ c, respell c x ∈ respellItems chosen index xs → read' (respell c x) = read x) :
    readEach read' (respellItems chosen index xs) = readEach read xs := by
  induction xs generalizing index with
  | nil =>
      rw [respellItems]
      rfl
  | cons x xs ih =>
      rw [respellItems] at h ⊢
      rw [readEach, readEach, h x List.mem_cons_self _ List.mem_cons_self,
        ih _ fun y hy c hc => h y (List.mem_cons_of_mem _ hy) c (List.mem_cons_of_mem _ hc)]

end Items

theorem readOptional_of_ne {sub : NodeReader} {v : Json} (hv : v ≠ .null) :
    readOptional sub v = do return some (← sub v) := by
  cases v with
  | null => exact absurd rfl hv
  | _ => rfl

theorem respell_ne_null {chosen : Position → Bool} {v : Json} (hv : v ≠ .null) :
    respell chosen v ≠ .null := by
  rcases eq_object_or_ne v with ⟨fields, rfl⟩ | stray
  · rw [respell]
    exact nofun
  · rw [respell_of_stray stray]
    exact hv

theorem readOptional_respell {sub sub' : NodeReader} {chosen : Position → Bool} {v : Json}
    (same : sub' (respell chosen v) = sub v) :
    readOptional sub' (respell chosen v) = readOptional sub v := by
  by_cases hv : v = .null
  · have stray : ∀ fields, Json.null ≠ .object fields := nofun
    rw [hv, respell_of_stray stray]
    rfl
  · rw [readOptional_of_ne hv, readOptional_of_ne (respell_ne_null hv), same]

section Lists

variable {α β : Type} {chosen : Position → Bool} {fields fields' : List (String × Json)}
  {key : String}

/-- Parts that are nodes in a list, or are read from what is in a list. -/
theorem items_respelled {read read' : Json → Reading α}
    (hread : SameBelow fields fields' read read')
    (hkey : listKeys.contains key = true) (hnode : nodeKeys.contains key = false) {v : Json}
    (hv : fields.lookup key = some v) (hv' : fields'.lookup key = some (respellPart chosen key v))
    (f : List α → Reading β) :
    (liftM (items (respellPart chosen key v)) >>= fun xs => readEach read' xs >>= f) =
      liftM (items v) >>= fun xs => readEach read xs >>= f := by
  rw [respellPart, hnode, if_neg Bool.false_ne_true, if_pos hkey] at hv' ⊢
  -- The items of what is no list are texts, which stay as they are.
  have ofTexts {xs : List Json} (same : items v = .ok xs)
      (texts : ∀ x ∈ xs, ∃ s, x = .text s) (hv' : fields'.lookup key = some v) :
      (liftM (items v) >>= fun xs => readEach read' xs >>= f) =
        liftM (items v) >>= fun xs => readEach read xs >>= f := by
    rw [same, ok_bind, ok_bind, readEach_congr fun x hx => ?_]
    obtain ⟨s, rfl⟩ := texts x hx
    exact hread (.text s) chosen (inside_of_items hv same hx) (inside_of_items hv' same hx)
  cases v with
  | list xs =>
      rw [respellList] at hv' ⊢
      have given : items (.list xs) = .ok xs := rfl
      have given' : items (.list (respellItems (fun p => chosen (.field key :: p)) 0 xs)) =
          .ok (respellItems (fun p => chosen (.field key :: p)) 0 xs) := rfl
      rw [given, given', ok_bind, ok_bind, readEach_respellItems 0 fun x hx c hc =>
        hread x c (inside_of_items hv given hx) (inside_of_items hv' given' hc)]
  | text s =>
      refine ofTexts rfl (fun x hx => ?_) hv'
      obtain ⟨n, -, rfl⟩ := List.mem_map.mp hx
      exact ⟨_, rfl⟩
  | object inner =>
      refine ofTexts rfl (fun x hx => ?_) hv'
      obtain ⟨field, -, rfl⟩ := List.mem_map.mp hx
      exact ⟨_, rfl⟩
  | _ => exact error_bind _ _ _

end Lists

namespace Spelled

variable {α β : Type} {chosen : Position → Bool} {fields fields' : List (String × Json)}
  {key : String} (h : Spelled chosen fields fields')

include h

theorem plain (hkey : isPlain key = true) : fields'.lookup key = fields.lookup key := by
  simp only [isPlain, List.contains_append, Bool.not_or, Bool.and_eq_true,
    Bool.not_eq_true'] at hkey
  obtain ⟨⟨hspelling, hnode⟩, hlist⟩ := hkey
  rw [h.part hspelling]
  cases fields.lookup key with
  | none => rfl
  | some v =>
      rw [Option.map_some, respellPart, hnode, hlist]
      rfl

theorem required (hkey : isPlain key = true) :
    required key (.object fields') = required key (.object fields) := by
  rw [Document.required, Document.required, h.plain hkey]

theorem optional (hkey : isPlain key = true) (missing : Json) :
    optional key missing (.object fields') = optional key missing (.object fields) := by
  rw [Document.optional, Document.optional, h.plain hkey]

theorem optionalInteger (hkey : isPlain key = true) (missing : Int) :
    optionalInteger key missing (.object fields') =
      optionalInteger key missing (.object fields) := by
  rw [Document.optionalInteger, Document.optionalInteger, h.optional hkey]

theorem optionalFlag (hkey : isPlain key = true) (missing : Bool) :
    optionalFlag key missing (.object fields') = optionalFlag key missing (.object fields) := by
  rw [Document.optionalFlag, Document.optionalFlag, h.optional hkey]

theorem plainItems (hkey : isPlain key = true) (read : Json → Reading α) :
    readItems key read (.object fields') = readItems key read (.object fields) := by
  rw [readItems, readItems, optionalItems, optionalItems, h.optional hkey]

/-- What is made of a field that has to be there. -/
theorem requiredPart (hkey : spellingKeys.contains key = false) {f f' : Json → Reading β}
    (given : ∀ v, fields.lookup key = some v →
      fields'.lookup key = some (respellPart chosen key v) → f' (respellPart chosen key v) = f v) :
    (liftM (Document.required key (.object fields')) >>= f') =
      liftM (Document.required key (.object fields)) >>= f := by
  rw [Document.required, Document.required]
  have part := h.part hkey
  cases hv : fields.lookup key with
  | none =>
      rw [hv] at part
      rw [part]
      rfl
  | some v =>
      rw [hv] at part
      rw [part]
      exact given v hv part

/-- What is made of a field that may be missing. -/
theorem optionalPart (hkey : spellingKeys.contains key = false) {missing : Json}
    {f f' : Json → Reading β} (absent : f' missing = f missing)
    (given : ∀ v, fields.lookup key = some v →
      fields'.lookup key = some (respellPart chosen key v) → f' (respellPart chosen key v) = f v) :
    (liftM (Document.optional key missing (.object fields')) >>= f') =
      liftM (Document.optional key missing (.object fields)) >>= f := by
  rw [Document.optional, Document.optional, ok_bind, ok_bind]
  have part := h.part hkey
  cases hv : fields.lookup key with
  | none =>
      rw [hv] at part
      rw [part]
      exact absent
  | some v =>
      rw [hv] at part
      rw [part]
      exact given v hv part

section Nodes

variable {sub sub' : NodeReader} (hsub : SameBelow fields fields' sub sub')

include hsub

/-- A part that is a node. -/
theorem node (hkey : nodeKeys.contains key = true) (hspelling : spellingKeys.contains key = false)
    (f : Node → Reading β) :
    (liftM (Document.required key (.object fields')) >>= fun x => sub' x >>= f) =
      liftM (Document.required key (.object fields)) >>= fun x => sub x >>= f := by
  refine h.requiredPart hspelling fun v hv hv' => ?_
  rw [respellPart, if_pos hkey] at hv' ⊢
  rw [hsub v _ (inside_of_lookup hv) (inside_of_lookup hv')]

/-- A part that is a node or missing. -/
theorem optionalNode (hkey : nodeKeys.contains key = true)
    (hspelling : spellingKeys.contains key = false) (f : Option Node → Reading β) :
    (liftM (Document.optional key .null (.object fields')) >>= fun x =>
        readOptional sub' x >>= f) =
      liftM (Document.optional key .null (.object fields)) >>= fun x =>
        readOptional sub x >>= f := by
  refine h.optionalPart hspelling rfl fun v hv hv' => ?_
  rw [respellPart, if_pos hkey] at hv' ⊢
  rw [readOptional_respell (hsub v _ (inside_of_lookup hv) (inside_of_lookup hv'))]

end Nodes

/-- A list of parts, or of what is read from parts. -/
theorem list {read read' : Json → Reading α} (hread : SameBelow fields fields' read read')
    (hkey : listKeys.contains key = true) (hnode : nodeKeys.contains key = false)
    (hspelling : spellingKeys.contains key = false) :
    readItems key read' (.object fields') = readItems key read (.object fields) := by
  simp only [readItems, optionalItems, liftM_bind, bind_assoc]
  refine h.optionalPart hspelling rfl fun v hv hv' => ?_
  have same := items_respelled hread hkey hnode hv hv' pure
  simp only [bind_pure] at same
  exact same

end Spelled

/-! ## Nodes of each kind -/

section Kinds

variable {chosen : Position → Bool} {fields fields' : List (String × Json)}
  {sub sub' item item' : NodeReader} (h : Spelled chosen fields fields')
  (hsub : SameBelow fields fields' sub sub') (hitem : SameBelow fields fields' item item')

include hitem in
theorem SameBelow.variableIn : SameBelow fields fields' (readVariableIn item)
    (readVariableIn item') := by
  intro x c hx hx'
  rw [readVariableIn, readVariableIn, hitem x c hx hx']

include hitem in
theorem SameBelow.functionDefinition : SameBelow fields fields'
    (fun v => item v >>= fun n => asFunctionDefinition n)
    (fun v => item' v >>= fun n => asFunctionDefinition n) := by
  intro x c hx hx'
  dsimp only
  rw [hitem x c hx hx']

include hsub in
/-- A base class is no node itself, but holds one. -/
theorem SameBelow.base : SameBelow fields fields' (readBase sub) (readBase sub') := by
  intro x c hx hx'
  cases x with
  | object inner =>
      obtain ⟨inner', hinner, h⟩ := respell_object c inner
      rw [hinner] at hx' ⊢
      have below : SameBelow inner inner' sub sub' := fun y d hy hy' =>
        hsub y d (hy.trans hx) (hy'.trans hx')
      simp (disch := decide) only [readBase, h.optional, h.optionalInteger, h.node below]
  | _ => rfl

include h hsub in
theorem readArray_respelled :
    readArray sub' (.object fields') = readArray sub (.object fields) := by
  simp (disch := decide) only [readArray, h.node hsub, h.required]

include h hsub in
theorem readBitField_respelled :
    readBitField sub' (.object fields') = readBitField sub (.object fields) := by
  simp (disch := decide) only [readBitField, h.node hsub, h.required]

include h in
theorem readBuiltIn_respelled (hasRoom : Bool) :
    readBuiltIn hasRoom (.object fields') = readBuiltIn hasRoom (.object fields) := by
  simp (disch := decide) only [readBuiltIn, h.required]

include h in
theorem readEnumeration_respelled :
    readEnumeration (.object fields') = readEnumeration (.object fields) := by
  simp (disch := decide) only [readEnumeration, h.required]

include h hsub hitem in
theorem readFunctionDefinition_respelled :
    readFunctionDefinition sub' item' (.object fields') =
      readFunctionDefinition sub item (.object fields) := by
  simp (disch := decide) only [readFunctionDefinition, h.node hsub, h.optional, h.plainItems,
    h.list hitem.variableIn]

include h hitem in
theorem readMemberPointer_respelled :
    readMemberPointer item' (.object fields') = readMemberPointer item (.object fields) := by
  simp (disch := decide) only [readMemberPointer, h.optionalNode hitem]

include h in
theorem readTypeName_respelled :
    readTypeName (.object fields') = readTypeName (.object fields) := by
  simp (disch := decide) only [readTypeName, h.optional, h.optionalInteger]

include h hitem in
theorem readSourceFile_respelled :
    readSourceFile item' (.object fields') = readSourceFile item (.object fields) := by
  simp (disch := decide) only [readSourceFile, h.required, h.optional, h.optionalInteger,
    h.plainItems, h.list hitem.variableIn, h.list hitem.functionDefinition]

include h hsub in
theorem readVariable_respelled :
    readVariable sub' (.object fields') = readVariable sub (.object fields) := by
  simp (disch := decide) only [readVariable, h.node hsub, h.required, h.optional]

/-- The parameters of a function type, if it has any. -/
def readParameters (item : NodeReader) (given : Json) : Reading (Option (List Variable)) :=
  match given with
  | .null => pure none
  | given => do some <$> readEach (readVariableIn item) (← items given)

theorem readFunctionType_eq (item : NodeReader) (v : Json) :
    readFunctionType item v = do
      let given ← optional "parameters" .null v
      let returnType ← readOptional item (← optional "return_type" .null v)
      let parameters ← readParameters item given
      let modifier ← optional "modifier" .null v
      let isConstructor ← optionalFlag "is_constructor" false v
      let vtableIndex ← optionalInteger "vtable_index" (-1) v
      return .functionType
        { common := ← nextCommon, returnType, parameters, modifier, isConstructor,
          vtableIndex } := by
  refine bind_congr fun given => bind_congr fun x => bind_congr fun returnType => ?_
  cases given <;> rfl

theorem readParameters_of_ne {v : Json} (hv : v ≠ .null) :
    readParameters item v = liftM (items v) >>= fun xs =>
      readEach (readVariableIn item) xs >>= fun parameters => pure (some parameters) := by
  cases v with
  | null => exact absurd rfl hv
  | _ => simp only [readParameters, map_eq_pure_bind]

include hitem in
theorem readParameters_respelled {v : Json} (hv : fields.lookup "parameters" = some v)
    (hv' : fields'.lookup "parameters" = some (respellPart chosen "parameters" v)) :
    readParameters item' (respellPart chosen "parameters" v) = readParameters item v := by
  by_cases hnull : v = .null
  · subst hnull
    rfl
  · have other : respellPart chosen "parameters" v ≠ .null := by
      cases v with
      | null => exact absurd rfl hnull
      | _ => exact nofun
    rw [readParameters_of_ne hnull, readParameters_of_ne other]
    exact items_respelled hitem.variableIn (by decide) (by decide) hv hv' _

include h hitem in
theorem readFunctionType_respelled :
    readFunctionType item' (.object fields') = readFunctionType item (.object fields) := by
  simp (disch := decide) only [readFunctionType_eq, h.optionalNode hitem, h.optional,
    h.optionalFlag, h.optionalInteger]
  refine h.optionalPart (by decide) rfl fun v hv hv' => ?_
  rw [readParameters_respelled hitem hv hv']

/-- What a descriptor leaves to a flag, or says itself. -/
def readChoice (general flag one descriptor : String) (v : Json) : Reading Bool :=
  if descriptor = general then liftM (optionalFlag flag true v) else pure (descriptor = one)

theorem readComposite_eq (descriptor : String) (sub item : NodeReader) (v : Json) :
    readComposite descriptor sub item v = do
      let isRecord ← readChoice "inline_struct_or_union" "is_struct" "struct" descriptor v
      let bases ← readItems "base_classes" (readBase sub) v
      let fields ← readItems "fields" item v
      let memberFunctions ← readItems "member_functions" item v
      return .composite (← nextCommon) isRecord bases fields memberFunctions := by
  rw [readComposite, readChoice]
  split <;> rfl

theorem readPointer_eq (descriptor : String) (sub : NodeReader) (v : Json) :
    readPointer descriptor sub v = do
      let isPointer ← readChoice "pointer_or_reference" "is_pointer" "pointer" descriptor v
      let target ← sub (← required "value_type" v)
      return .pointer (← nextCommon) isPointer target := by
  rw [readPointer, readChoice]
  split <;> rfl

include h hsub hitem in
/-- A composite is read the same under two descriptors that come to the same kind. -/
theorem readComposite_respelled {descriptor descriptor' : String}
    (same :
      readChoice "inline_struct_or_union" "is_struct" "struct" descriptor' (.object fields') =
        readChoice "inline_struct_or_union" "is_struct" "struct" descriptor (.object fields)) :
    readComposite descriptor' sub' item' (.object fields') =
      readComposite descriptor sub item (.object fields) := by
  simp (disch := decide) only [readComposite_eq, same, h.list hitem, h.list hsub.base]

include h hsub in
theorem readPointer_respelled {descriptor descriptor' : String}
    (same :
      readChoice "pointer_or_reference" "is_pointer" "pointer" descriptor' (.object fields') =
        readChoice "pointer_or_reference" "is_pointer" "pointer" descriptor (.object fields)) :
    readPointer descriptor' sub' (.object fields') =
      readPointer descriptor sub (.object fields) := by
  simp (disch := decide) only [readPointer_eq, same, h.node hsub]

theorem readChoice_congr {flag : String} (hflag : fields'.lookup flag = fields.lookup flag)
    (general one descriptor : String) :
    readChoice general flag one descriptor (.object fields') =
      readChoice general flag one descriptor (.object fields) := by
  rw [readChoice, readChoice, optionalFlag, optionalFlag, optional, optional, hflag]

/-- A flag says the same as a descriptor that leaves no choice. -/
theorem readChoice_flag {general flag one descriptor : String} {b : Bool}
    (hflag : fields'.lookup flag = some (.bool b)) (hne : descriptor ≠ general)
    (hb : decide (descriptor = one) = b) :
    readChoice general flag one general (.object fields') =
      readChoice general flag one descriptor (.object fields) := by
  rw [readChoice, readChoice, if_pos rfl, if_neg hne, optionalFlag, optional, hflag, hb]
  rfl

include h in
theorem readCommon_respelled (serial : Nat) :
    readCommon serial (.object fields') = readCommon serial (.object fields) := by
  simp (disch := decide) only [readCommon, h.optional, h.optionalInteger]

include h hsub hitem in
/-- Every reader that a descriptor names, where the spelling is the same. -/
theorem readerFor_respelled
    (same : ∀ key ∈ spellingKeys, fields'.lookup key = fields.lookup key) (hasRoom : Bool)
    (descriptor : String) :
    (readerFor? hasRoom sub' item' descriptor).map (· (.object fields')) =
      (readerFor? hasRoom sub item descriptor).map (· (.object fields)) := by
  have record := readChoice_congr (same "is_struct" (by decide)) "inline_struct_or_union" "struct"
  have pointer := readChoice_congr (same "is_pointer" (by decide)) "pointer_or_reference" "pointer"
  rw [readerFor?.eq_def hasRoom sub' item' descriptor]
  split <;> simp only [readerFor?, Option.map_some, Option.map_none]
  · rw [readArray_respelled h hsub]
  · rw [readBitField_respelled h hsub]
  · rw [readBuiltIn_respelled h]
  · rw [readEnumeration_respelled h]
  · rw [readEnumeration_respelled h]
  · rw [readFunctionDefinition_respelled h hsub hitem]
  · rw [readFunctionType_respelled h hitem]
  · rw [readComposite_respelled h hsub hitem (record _)]
  · rw [readComposite_respelled h hsub hitem (record _)]
  · rw [readComposite_respelled h hsub hitem (record _)]
  · rw [readPointer_respelled h hsub (pointer _)]
  · rw [readPointer_respelled h hsub (pointer _)]
  · rw [readPointer_respelled h hsub (pointer _)]
  · rw [readMemberPointer_respelled h hitem]
  · rw [readSourceFile_respelled h hitem]
  · rw [readTypeName_respelled h]
  · rw [readVariable_respelled h hsub]

/-- The rest of reading a node, once its own parts are read. -/
def finish (v : Json) (node : Node) : Reading Node := do
  let common ← readCommon node.common.serial v
  return node.withCommon common

include h in
theorem finish_respelled (node : Node) :
    finish (.object fields') node = finish (.object fields) node := by
  rw [finish, finish, readCommon_respelled h]

theorem readDescribed_of_reader {hasRoom : Bool} {descriptor : String} {reader : NodeReader}
    (hd : fields.lookup "descriptor" = some (.text descriptor))
    (hreader : readerFor? hasRoom sub item descriptor = some reader) :
    readDescribed hasRoom sub item (.object fields) =
      reader (.object fields) >>= finish (.object fields) := by
  rw [readDescribed, required, hd, ok_bind]
  dsimp only
  rw [hreader]
  rfl

include h hsub hitem in
theorem readDescribed_same
    (same : ∀ key ∈ spellingKeys, fields'.lookup key = fields.lookup key) (hasRoom : Bool) :
    readDescribed hasRoom sub' item' (.object fields') =
      readDescribed hasRoom sub item (.object fields) := by
  have descriptor := same "descriptor" (by decide)
  cases hd : fields.lookup "descriptor" with
  | none =>
      rw [hd] at descriptor
      rw [readDescribed, readDescribed, required, required, hd, descriptor]
      exact error_bind _ _ _
  | some d =>
      rw [hd] at descriptor
      cases d with
      | text s =>
          have readers := readerFor_respelled h hsub hitem same hasRoom s
          cases hreader : readerFor? hasRoom sub item s with
          | none =>
              rw [hreader] at readers
              have hreader' := Option.map_eq_none_iff.mp readers
              rw [readDescribed, readDescribed, required, required, hd, descriptor, ok_bind,
                ok_bind]
              dsimp only
              rw [hreader, hreader']
              exact fail_bind _ _ _
          | some reader =>
              rw [hreader] at readers
              obtain ⟨reader', hreader', same⟩ := Option.map_eq_some_iff.mp readers
              rw [readDescribed_of_reader hd hreader, readDescribed_of_reader descriptor hreader',
                same, funext (finish_respelled h)]
      | _ =>
          rw [readDescribed, readDescribed, required, required, hd, descriptor, ok_bind, ok_bind]
          exact fail_bind _ _ _

include h hsub hitem in
/-- A node is read the same in every spelling. -/
theorem readDescribed_respelled (hasRoom : Bool) :
    readDescribed hasRoom sub' item' (.object fields') =
      readDescribed hasRoom sub item (.object fields) := by
  have finished := funext (finish_respelled h)
  -- The other descriptor has the same reader, and its flag says what the first one said.
  cases h.spelling with
  | same same => exact readDescribed_same h hsub hitem same hasRoom
  | enumeration hd hd' =>
      rw [readDescribed_of_reader hd (by rw [readerFor?]),
        readDescribed_of_reader hd' (by rw [readerFor?]),
        readEnumeration_respelled h, finished]
  | composite isRecord hd hd' hflag =>
      have reader : readerFor? hasRoom sub item (if isRecord then "struct" else "union") =
          some (readComposite (if isRecord then "struct" else "union") sub item) := by
        cases isRecord <;> simp only [Bool.false_eq_true, if_true, if_false, readerFor?]
      rw [readDescribed_of_reader hd reader, readDescribed_of_reader hd' (by rw [readerFor?]),
        readComposite_respelled h hsub hitem (readChoice_flag hflag ?_ ?_), finished]
      · cases isRecord <;> decide
      · cases isRecord <;> decide
  | pointer isPointer hd hd' hflag =>
      have reader : readerFor? hasRoom sub item (if isPointer then "pointer" else "reference") =
          some (readPointer (if isPointer then "pointer" else "reference") sub) := by
        cases isPointer <;> simp only [Bool.false_eq_true, if_true, if_false, readerFor?]
      rw [readDescribed_of_reader hd reader, readDescribed_of_reader hd' (by rw [readerFor?]),
        readPointer_respelled h hsub (readChoice_flag hflag ?_ ?_), finished]
      · cases isPointer <;> decide
      · cases isPointer <;> decide

end Kinds

/-! ## Nodes inside one another -/

section Levels

theorem readDescribed_of_stray {hasRoom hasRoom' : Bool} {sub sub' item item' : NodeReader}
    {v : Json} (hv : ∀ fields, v ≠ .object fields) :
    readDescribed hasRoom' sub' item' v = readDescribed hasRoom sub item v := by
  have missing : required "descriptor" v = .error .wrongKind := by
    cases v with
    | object fields => exact absurd rfl (hv fields)
    | _ => rfl
  rw [readDescribed, readDescribed, missing]
  exact error_bind _ _ _

/-- So much room does for one value what so much does for another: it is the same, or each has as
much as it asks for at most. -/
def Enough (room room' : Nat) (v w : Json) : Prop :=
  room' = room ∨ 3 * v.depth + 3 ≤ room ∧ 3 * w.depth + 3 ≤ room'

theorem Enough.below {room room' : Nat} {v w x y : Json} (h : Enough (room + 3) (room' + 3) v w)
    (hx : x.depth < v.depth) (hy : y.depth < w.depth) :
    Enough (room + 1) (room' + 1) x y ∧ Enough room room' x y := by
  simp only [Enough] at h ⊢
  omega

theorem readWithin_of_lt {room : Nat} (h : room < 3) (v : Json) :
    readWithin room v = fail .tooDeep := by
  obtain rfl | rfl | rfl : room = 0 ∨ room = 1 ∨ room = 2 := by omega
  all_goals rfl

theorem readWithin_respell {room room' : Nat} {v : Json} {chosen : Position → Bool}
    (enough : Enough room room' v (respell chosen v)) :
    readWithin room' (respell chosen v) = readWithin room v := by
  -- By induction on the room, as a value is read with less of it than what it stands in.
  induction room using Nat.strongRecOn generalizing room' v chosen with
  | ind room ih =>
      by_cases shallow : room < 3
      · have shallow' : room' = room := enough.resolve_right (by omega)
        rw [shallow', readWithin_of_lt shallow, readWithin_of_lt shallow]
      · have shallow' : ¬room' < 3 := by
          simp only [Enough] at enough
          omega
        obtain ⟨room, rfl⟩ : ∃ n, room = n + 3 := ⟨room - 3, by omega⟩
        obtain ⟨room', rfl⟩ : ∃ n, room' = n + 3 := ⟨room' - 3, by omega⟩
        rw [readWithin, readWithin]
        rcases eq_object_or_ne v with ⟨fields, rfl⟩ | stray
        · obtain ⟨fields', hfields, h⟩ := respell_object chosen fields
          rw [hfields] at enough ⊢
          -- What has all it asks for has room for a class, too.
          have hasRoom : decide (0 < room') = decide (0 < room) := by
            have : 0 < (Json.object fields).depth := Nat.succ_pos _
            have : 0 < (Json.object fields').depth := Nat.succ_pos _
            simp only [Enough] at enough
            rw [decide_eq_decide]
            omega
          rw [hasRoom]
          exact readDescribed_respelled h
            (fun x c hx hx' => ih (room + 1) (by omega) (enough.below hx.depth hx'.depth).1)
            (fun x c hx hx' => ih room (by omega) (enough.below hx.depth hx'.depth).2) _
        · rw [respell_of_stray stray]
          exact readDescribed_of_stray stray

theorem readNode_respell (room : Room) (v : Json) (chosen : Position → Bool) :
    readNode room (respell chosen v) = readNode room v := by
  rw [readNode, readNode]
  refine readWithin_respell ?_
  cases room with
  | none => exact .inr ⟨Nat.le_refl _, Nat.le_refl _⟩
  | some n => exact .inl rfl

theorem readDocument_eq (room : Room) (root : Json) :
    readDocument room root = do
      let files ← readEach (fun f => do asSourceFile (← readNode (room.inside 1) f))
        (← items (← required "files" root))
      let types ← readItems "deduplicated_types" (readNode (room.inside 1)) root
      return { files, types, size := ← get } := by
  simp only [readDocument, readItems, bind_assoc]

theorem readDocument_respelled {chosen : Position → Bool} {fields fields' : List (String × Json)}
    (h : Spelled chosen fields fields') (room : Room) :
    readDocument room (.object fields') = readDocument room (.object fields) := by
  have nodes : SameBelow fields fields' (readNode (room.inside 1)) (readNode (room.inside 1)) :=
    fun x c _ _ => readNode_respell _ x c
  have files : SameBelow fields fields'
      (fun f => readNode (room.inside 1) f >>= fun n => asSourceFile n)
      (fun f => readNode (room.inside 1) f >>= fun n => asSourceFile n) := by
    intro x c _ _
    dsimp only
    rw [readNode_respell]
  simp (disch := decide) only [readDocument_eq, h.list nodes]
  exact h.requiredPart (by decide) fun v hv hv' =>
    items_respelled files (by decide) (by decide) hv hv' _

end Levels

/-! ## Documents -/

/-- The version of a document is no node. -/
theorem warnings_respelled {chosen : Position → Bool} {fields fields' : List (String × Json)}
    (h : Spelled chosen fields fields') (room : Room) :
    warnings room (.object fields') = warnings room (.object fields) := by
  have version : (Json.object fields').field? "version" = (Json.object fields).field? "version" :=
    h.plain (by decide)
  rw [warnings, warnings, versionWarning?, versionWarning?, version]

/-- Texts of the same document, but for the spelling of some nodes, are read the same: as equal
documents with the same warnings, or with the same fault. -/
theorem readBytes_respell {room : Room} {bytes bytes' : Text.Bytes} {root : Json}
    (chosen : Position → Bool)
    (hread : Json.read (room.inside 5) (Text.decodeUtf8 bytes) = .ok root)
    (hread' : Json.read (room.inside 5) (Text.decodeUtf8 bytes') = .ok (respell chosen root)) :
    readBytes room bytes' = readBytes room bytes := by
  rw [readBytes, readBytes, read, read, hread, hread']
  cases root with
  | object fields =>
      obtain ⟨fields', hfields, h⟩ := respell_object chosen fields
      rw [hfields]
      dsimp only
      rw [warnings_respelled h, readDocument_respelled h]
  | _ => rfl

/-- A structure with a pointer to an enumeration. -/
def plainText : List String :=
  ["\x7b\"files\":[],\"deduplicated_types\":[\x7b\"descriptor\":\"struct\",\"fields\":[",
   "\x7b\"descriptor\":\"pointer\",\"value_type\":\x7b\"descriptor\":\"enum\",",
   "\"constants\":[]\x7d\x7d]\x7d]\x7d"]

/-- The same, with the other spelling of the structure and of the enumeration. -/
def inlineText : List String :=
  ["\x7b\"files\":[],\"deduplicated_types\":[\x7b\"descriptor\":\"inline_struct_or_union\",",
   "\"fields\":[\x7b\"descriptor\":\"pointer\",\"value_type\":\x7b\"descriptor\":\"inline_enum\",",
   "\"constants\":[]\x7d\x7d],\"is_struct\":true\x7d]\x7d"]

def inlinePositions : List Position :=
  [[.field "deduplicated_types", .item 0],
   [.field "deduplicated_types", .item 0, .field "fields", .item 0, .field "value_type"]]

def parsed (text : List String) : Except Json.Fault Json :=
  Json.read (Room.usual.inside 5) (Text.decodeUtf8 (bytesOf text))

/-- Two nodes are respelled, and the one between them is not. -/
theorem readBytes_respell_inline :
    ∃ root, parsed plainText = .ok root ∧
      parsed inlineText = .ok (respell (inlinePositions.contains ·) root) ∧
      respell (inlinePositions.contains ·) root ≠ root ∧
      (readBytes .usual (bytesOf plainText)).2.toOption.isSome = true ∧
      readBytes .usual (bytesOf inlineText) = readBytes .usual (bytesOf plainText) := by
  have found : (parsed plainText).toOption.isSome = true := by decide +kernel
  have other : (parsed inlineText).toOption =
      (parsed plainText).toOption.map (respell (inlinePositions.contains ·)) := by
    decide +kernel
  have changed : (parsed inlineText).toOption ≠ (parsed plainText).toOption := by decide +kernel
  cases hread : parsed plainText with
  | error e =>
      rw [hread] at found
      cases found
  | ok root =>
      rw [hread] at other changed
      cases hread' : parsed inlineText with
      | error e =>
          rw [hread'] at other
          cases other
      | ok root' =>
          rw [hread'] at other changed
          obtain rfl := Option.some.inj other
          exact ⟨root, rfl, rfl, fun h => changed (congrArg some h), by decide +kernel,
            readBytes_respell _ hread hread'⟩

end StabsImport.Document
