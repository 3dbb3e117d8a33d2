import StabsImport.Document.Reader

/-!
# What the reader of documents answers for

A text that is not a document is refused with an error of its format. Three things escape that
answer: an infinite number where a whole one is read, a value that is looked up in though it is no
object, and nodes that stand inside one another deeper than there is room for. Every reader of a
node is shown to fail in no other way. Main statement: `readBytes_ends`.
-/

namespace StabsImport.Document

/-! ## Objects in a value -/

/-- The fields of an object that occurs in a value. -/
inductive Occurs (fields : List (String × Json)) : Json → Prop
  | here : Occurs fields (.object fields)
  | item {xs : List Json} {x : Json} : x ∈ xs → Occurs fields x → Occurs fields (.list xs)
  | field {others : List (String × Json)} {f : String × Json} :
      f ∈ others → Occurs fields f.2 → Occurs fields (.object others)

/-- The fields that are read as whole numbers. -/
def numberKeys : List String :=
  ["element_count", "bitfield_offset_bits", "value", "address", "line_number", "vtable_index",
   "offset", "index", "file", "type", "referenced_file_index", "text_address", "global_address",
   "dbx_register_number", "register_index", "stack_offset", "relative_offset_bytes",
   "absolute_offset_bytes", "size_bits"]

/-- A field of an object that no mismatch of the format accounts for. -/
inductive Misfit (fields : List (String × Json)) : Mismatch → Prop
  | number {key : String} {negative : Bool} : key ∈ numberKeys →
      fields.lookup key = some (.real (.infinite negative)) → Misfit fields .infinite
  | range {v : Json} : fields.lookup "address_range" = some v → v.holds = true →
      (∀ inner, v ≠ .object inner) → Misfit fields .noFields
  | base {v w : Json} {xs : List Json} : fields.lookup "base_classes" = some v →
      items v = .ok xs → w ∈ xs → (∀ inner, w ≠ .object inner) → Misfit fields .noFields
  | typeNumber {v : Json} : fields.lookup "referenced_stabs_type_number" = some v →
      (∀ inner, v ≠ .object inner) → Misfit fields .noFields

/-- An object in the value has such a field. -/
def Escapes (v : Json) (m : Mismatch) : Prop := ∃ fields, Occurs fields v ∧ Misfit fields m

/-- A value inside another: not so deep, and its objects occur in the other. -/
structure Inside (x v : Json) : Prop where
  depth : x.depth < v.depth
  occurs : ∀ fields, Occurs fields x → Occurs fields v

theorem Inside.escapes {x v : Json} {m : Mismatch} (h : Inside x v) (hx : Escapes x m) :
    Escapes v m := by
  obtain ⟨fields, hoccurs, hmisfit⟩ := hx
  exact ⟨fields, h.occurs fields hoccurs, hmisfit⟩

theorem Inside.trans {x y z : Json} (h : Inside x y) (h' : Inside y z) : Inside x z :=
  ⟨Nat.lt_trans h.depth h'.depth, fun fields hx => h'.occurs fields (h.occurs fields hx)⟩

theorem depth_le_depthOfItems {x : Json} : {xs : List Json} → x ∈ xs →
    x.depth ≤ Json.depthOfItems xs
  | y :: ys, h => by
      rw [Json.depthOfItems]
      rcases List.mem_cons.mp h with rfl | h
      · exact Nat.le_max_left _ _
      · exact Nat.le_trans (depth_le_depthOfItems h) (Nat.le_max_right _ _)

theorem depth_le_depthOfFields {f : String × Json} : {fields : List (String × Json)} →
    f ∈ fields → f.2.depth ≤ Json.depthOfFields fields
  | (k, y) :: ys, h => by
      rw [Json.depthOfFields]
      rcases List.mem_cons.mp h with rfl | h
      · exact Nat.le_max_left _ _
      · exact Nat.le_trans (depth_le_depthOfFields h) (Nat.le_max_right _ _)

theorem mem_of_lookup {key : String} {x : Json} : {fields : List (String × Json)} →
    fields.lookup key = some x → (key, x) ∈ fields
  | (k, y) :: ys, h => by
      rw [List.lookup_cons] at h
      split at h
      · next hk =>
          rw [eq_of_beq hk]
          cases h
          exact List.mem_cons_self
      · exact List.mem_cons_of_mem _ (mem_of_lookup h)

theorem inside_of_lookup {fields : List (String × Json)} {key : String} {x : Json}
    (h : fields.lookup key = some x) : Inside x (.object fields) where
  depth := Nat.lt_succ_of_le (depth_le_depthOfFields (mem_of_lookup h))
  occurs _ hx := .field (mem_of_lookup h) hx

/-- The items of a field are inside the object. -/
theorem inside_of_items {fields : List (String × Json)} {key : String} {v x : Json}
    {xs : List Json} (h : fields.lookup key = some v) (hxs : items v = .ok xs) (hx : x ∈ xs) :
    Inside x (.object fields) := by
  -- What is no item of a list is a text, in which nothing occurs.
  have ofText {s : String} : Inside (.text s) (.object fields) := ⟨Nat.succ_pos _, nofun⟩
  cases v with
  | list ys =>
      cases hxs
      have hlist : Inside x (.list xs) :=
        ⟨Nat.lt_succ_of_le (depth_le_depthOfItems hx), fun _ => .item hx⟩
      exact hlist.trans (inside_of_lookup h)
  | text s =>
      cases hxs
      obtain ⟨n, -, rfl⟩ := List.mem_map.mp hx
      exact ofText
  | object inner =>
      cases hxs
      obtain ⟨f, -, rfl⟩ := List.mem_map.mp hx
      exact ofText
  | _ => cases hxs

/-! ## How readers fail -/

/-- What a reader fails with, if it fails. -/
def FailsBy {α : Type} (m : Reading α) (bad : Mismatch → Prop) : Prop :=
  ∀ n e, m n = .error e → bad e

namespace FailsBy

variable {α β : Type} {bad : Mismatch → Prop}

theorem pure (a : α) : FailsBy (pure a) bad := nofun

theorem fail {e : Mismatch} (h : bad e) : FailsBy (fail e : Reading α) bad := by
  rintro n _ ⟨⟩
  exact h

/-- What follows a failure does not matter. -/
theorem failed {e : Mismatch} (h : bad e) {f : α → Reading β} :
    FailsBy (Document.fail e >>= f) bad := by
  rintro n _ ⟨⟩
  exact h

theorem bind {m : Reading α} {f : α → Reading β} (hm : FailsBy m bad)
    (hf : ∀ a, FailsBy (f a) bad) : FailsBy (m >>= f) bad := by
  intro n e h
  simp only [Bind.bind, StateT.bind, Except.bind] at h
  split at h
  · next hm' =>
      cases h
      exact hm n _ hm'
  · exact hf _ _ _ h

theorem lift {r : Taken α} (h : ∀ e, r = .error e → bad e) : FailsBy (liftM r) bad := by
  intro n e he
  cases r with
  | ok a => cases he
  | error e' =>
      cases he
      exact h e rfl

theorem nextCommon : FailsBy nextCommon bad := nofun

theorem map {m : Reading α} (f : α → β) (hm : FailsBy m bad) : FailsBy (f <$> m) bad := by
  rw [← bind_pure_comp]
  exact hm.bind fun _ => .pure _

theorem readEach {read : Json → Reading α} {xs : List Json}
    (h : ∀ x ∈ xs, FailsBy (read x) bad) : FailsBy (readEach read xs) bad := by
  induction xs with
  | nil => exact .pure _
  | cons x xs ih =>
      exact .bind (h x List.mem_cons_self) fun _ =>
        .bind (ih fun y hy => h y (List.mem_cons_of_mem _ hy)) fun _ => .pure _

end FailsBy

/-- What is answered for, or escapes the value. -/
structure Covers (bad : Mismatch → Prop) (v : Json) : Prop where
  reported : ∀ e, e.isReported = true → bad e
  escapes : ∀ e, Escapes v e → bad e

theorem Covers.inside {bad : Mismatch → Prop} {x v : Json} (h : Covers bad v) (hx : Inside x v) :
    Covers bad x where
  reported := h.reported
  escapes e he := h.escapes e (hx.escapes he)

section Fields

variable {α β : Type} {bad : Mismatch → Prop} {fields : List (String × Json)} {key : String}

theorem Covers.misfit (h : Covers bad (.object fields)) {e : Mismatch} (he : Misfit fields e) :
    bad e :=
  h.escapes e ⟨fields, .here, he⟩

theorem integer_error {v : Json} {e : Mismatch} (h : integer v = .error e) :
    e.isReported = true ∨ ∃ negative, v = .real (.infinite negative) ∧ e = .infinite := by
  cases v with
  | real x =>
      cases x with
      | infinite negative =>
          cases h
          exact .inr ⟨negative, rfl, rfl⟩
      | nan =>
          cases h
          exact .inl rfl
      | finite negative mantissa exponent => cases h
  | text s =>
      rw [integer] at h
      cases hs : Text.Numeral.read 10 s <;> rw [hs] at h <;> cases h
      exact .inl rfl
  | bool _ | int _ => cases h
  | null | list _ | object _ =>
      cases h
      exact .inl rfl

theorem required_error {v : Json} {e : Mismatch} (h : required key v = .error e) :
    e.isReported = true := by
  unfold required at h
  split at h
  · split at h <;> cases h
    rfl
  · cases h
    rfl

theorem items_error {v : Json} {e : Mismatch} (h : items v = .error e) : e.isReported = true := by
  cases v <;> cases h <;> rfl

theorem oneOf_error {class_ : String} {all : List α} {text : α → String} {v : Json} {e : Mismatch}
    (h : oneOf class_ all text v = .error e) : e.isReported = true := by
  unfold oneOf at h
  split at h <;> cases h
  rfl

theorem Covers.integer (h : Covers bad (.object fields)) (number : key ∈ numberKeys) {x : Json}
    (hx : fields.lookup key = some x) {e : Mismatch} (he : integer x = .error e) : bad e := by
  rcases integer_error he with he | ⟨negative, rfl, rfl⟩
  · exact h.reported e he
  · exact h.misfit (.number number hx)

theorem Covers.optionalInteger (h : Covers bad (.object fields)) (number : key ∈ numberKeys)
    {missing : Int} {e : Mismatch}
    (he : optionalInteger key missing (.object fields) = .error e) : bad e := by
  have he : Document.integer ((fields.lookup key).getD (.int missing)) = .error e := he
  cases hx : fields.lookup key with
  | none =>
      rw [hx] at he
      cases he
  | some x =>
      rw [hx] at he
      exact h.integer number hx he

namespace FailsBy

theorem taken {r : Taken α} {f : α → Reading β} (hr : ∀ e, r = .error e → bad e)
    (hf : ∀ a, r = .ok a → FailsBy (f a) bad) : FailsBy (liftM r >>= f) bad := by
  cases r with
  | ok a => exact hf a rfl
  | error e =>
      rintro n _ ⟨⟩
      exact hr e rfl

theorem required (h : Covers bad (.object fields)) {f : Json → Reading β}
    (hf : ∀ x, fields.lookup key = some x → FailsBy (f x) bad) :
    FailsBy (liftM (required key (.object fields)) >>= f) bad := by
  refine taken (fun e he => h.reported e (required_error he)) fun x hx => hf x ?_
  rw [Document.required] at hx
  split at hx <;> cases hx
  assumption

/-- A value that is no object is reported as soon as a field is asked of it. -/
theorem atField {v : Json} (h : Covers bad v) {f : Json → Reading β}
    (hf : ∀ fields, v = .object fields →
      FailsBy (liftM (Document.required key (.object fields)) >>= f) bad) :
    FailsBy (liftM (Document.required key v) >>= f) bad := by
  cases v with
  | object fields => exact hf fields rfl
  | _ =>
      rintro n _ ⟨⟩
      exact h.reported _ rfl

theorem requiredInteger (h : Covers bad (.object fields)) (number : key ∈ numberKeys)
    {f : Int → Reading β} (hf : ∀ n, FailsBy (f n) bad) :
    FailsBy (liftM (Document.required key (.object fields)) >>= fun x =>
      liftM (integer x) >>= f) bad :=
  required h fun _ hx => taken (fun _ he => h.integer number hx he) fun n _ => hf n

theorem optional {missing : Json} {f : Json → Reading β}
    (hf : ∀ x, fields.lookup key = some x ∨ x = missing → FailsBy (f x) bad) :
    FailsBy (liftM (optional key missing (.object fields)) >>= f) bad := by
  refine taken nofun fun x hx => hf x ?_
  cases hx
  cases fields.lookup key with
  | none => exact .inr rfl
  | some x => exact .inl rfl

theorem optionalInteger (h : Covers bad (.object fields)) (number : key ∈ numberKeys)
    {missing : Int} {f : Int → Reading β} (hf : ∀ n, FailsBy (f n) bad) :
    FailsBy (liftM (optionalInteger key missing (.object fields)) >>= f) bad :=
  taken (fun _ he => h.optionalInteger number he) fun n _ => hf n

theorem optionalFlag {missing : Bool} {f : Bool → Reading β} (hf : ∀ b, FailsBy (f b) bad) :
    FailsBy (liftM (optionalFlag key missing (.object fields)) >>= f) bad := by
  refine taken (fun _ he => ?_) fun b _ => hf b
  cases he

theorem optionalItems (h : Covers bad (.object fields)) {f : List Json → Reading β}
    (hf : ∀ xs, (∀ x ∈ xs, ∃ v, fields.lookup key = some v ∧ items v = .ok xs) →
      FailsBy (f xs) bad) : FailsBy (liftM (optionalItems key (.object fields)) >>= f) bad := by
  have given : Document.optionalItems key (.object fields) =
      items ((fields.lookup key).getD (.list [])) := rfl
  rw [given]
  refine taken (fun e he => h.reported e (items_error he)) fun xs hxs => hf xs fun x hx => ?_
  cases hv : fields.lookup key with
  | none =>
      rw [hv] at hxs
      cases hxs
      cases hx
  | some v =>
      rw [hv] at hxs
      exact ⟨v, rfl, hxs⟩

theorem readItems (h : Covers bad (.object fields)) {read : Json → Reading α}
    (hread : ∀ v xs x, fields.lookup key = some v → items v = .ok xs → x ∈ xs →
      FailsBy (read x) bad) : FailsBy (readItems key read (.object fields)) bad :=
  optionalItems h fun xs hxs => readEach fun x hx => by
    obtain ⟨v, hv, hitems⟩ := hxs x hx
    exact hread v xs x hv hitems hx

end FailsBy

end Fields

/-! ## The readers of parts -/

section Parts

variable {β : Type} {bad : Mismatch → Prop} {fields : List (String × Json)} {v : Json}
  (h : Covers bad v) (hfields : Covers bad (.object fields))

include h in
theorem readConstant_failsBy : FailsBy (readConstant v) bad := by
  refine .atField h fun fields hv => ?_
  subst hv
  exact .requiredInteger h (by simp [numberKeys]) fun _ => .required h fun _ _ => .pure _

include h in
theorem readLineNumber_failsBy : FailsBy (readLineNumber v) bad := by
  refine .atField h fun fields hv => ?_
  subst hv
  exact .requiredInteger h (by simp [numberKeys]) fun _ =>
    .requiredInteger h (by simp [numberKeys]) fun _ => .pure _

include h in
theorem readBreadcrumb_failsBy : FailsBy (readBreadcrumb v) bad := by
  refine .atField h fun fields hv => ?_
  subst hv
  exact .requiredInteger h (by simp [numberKeys]) fun _ => .required h fun _ _ => .pure _

include h in
theorem readNumbered_failsBy : FailsBy (readNumbered v) bad := by
  refine .atField h fun fields hv => ?_
  subst hv
  exact .requiredInteger h (by simp [numberKeys]) fun _ =>
    .optionalInteger h (by simp [numberKeys]) fun _ =>
      .requiredInteger h (by simp [numberKeys]) fun _ => .pure _

include h in
theorem readStorage_failsBy {f : Storage → Reading β} (hf : ∀ a, FailsBy (f a) bad) :
    FailsBy (liftM (readStorage v) >>= f) bad := by
  simp only [readStorage, liftM_bind, liftM_pure, bind_assoc, pure_bind]
  refine .atField h fun fields hv => ?_
  subst hv
  refine .required h fun _ _ => .taken (fun e he => h.reported e (oneOf_error he)) fun _ _ => ?_
  refine .optional fun _ _ => .taken (fun e he => h.reported e (oneOf_error he)) fun _ _ => ?_
  refine .optionalInteger h (by simp [numberKeys]) fun _ => .optional fun _ _ => ?_
  refine .optional fun _ _ => .optionalInteger h (by simp [numberKeys]) fun _ => ?_
  exact .optionalInteger h (by simp [numberKeys]) fun _ => .optionalFlag fun _ =>
    .optionalInteger h (by simp [numberKeys]) fun _ => hf _

include hfields in
theorem readCommon_failsBy (serial : Nat) {f : Common → Reading β} (hf : ∀ a, FailsBy (f a) bad) :
    FailsBy (liftM (readCommon serial (.object fields)) >>= f) bad := by
  simp only [readCommon, liftM_bind, liftM_pure, bind_assoc, pure_bind]
  refine .optional fun _ _ => .optional fun _ _ => ?_
  refine .taken (fun e he => hfields.reported e (oneOf_error he)) fun _ _ => ?_
  exact .optionalInteger hfields (by simp [numberKeys]) fun _ =>
    .optionalInteger hfields (by simp [numberKeys]) fun _ =>
      .optionalInteger hfields (by simp [numberKeys]) fun _ => hf _

/-- The number of a type that is given as anything but a number is looked up in. -/
theorem typeNumber_failsBy (h : Covers bad v)
    (other : (∀ inner, v ≠ .object inner) → bad .noFields)
    {f : Option TypeNumber → Reading β} (hf : ∀ a, FailsBy (f a) bad) :
    FailsBy (liftM (typeNumber v) >>= f) bad := by
  have strays (hv : ∀ inner, v ≠ .object inner) :
      ∀ e, (Except.error .noFields : Taken (Option TypeNumber)) = .error e → bad e := by
    rintro _ ⟨⟩
    exact other hv
  cases v with
  | null | int _ | bool _ => exact hf _
  | object inner =>
      simp only [typeNumber, liftM_bind, liftM_pure, bind_assoc, pure_bind]
      exact .optionalInteger h (by simp [numberKeys]) fun _ =>
        .requiredInteger h (by simp [numberKeys]) fun _ => hf _
  | real _ | text _ | list _ => exact .taken (strays nofun) fun a _ => hf a

variable {sub : NodeReader} (hsub : ∀ x, Inside x v → FailsBy (sub x) bad)

include h hsub in
theorem readBase_failsBy (other : (∀ inner, v ≠ .object inner) → bad .noFields) :
    FailsBy (readBase sub v) bad := by
  cases v with
  | object inner =>
      refine .optional fun _ _ => .optional fun _ _ => ?_
      refine .optionalInteger h (by simp [numberKeys]) fun _ => .required h fun _ hx => ?_
      exact .bind (hsub _ (inside_of_lookup hx)) fun _ => .pure _
  | _ =>
      rintro n _ ⟨⟩
      exact other nofun

end Parts

/-! ## The readers of nodes -/

section Nodes

variable {α : Type} {bad : Mismatch → Prop}

theorem asVariable_failsBy (h : ∀ e, e.isReported = true → bad e) (n : Node) :
    FailsBy (asVariable n) bad := by
  cases n <;> first | exact .pure _ | exact .fail (h _ rfl)

theorem asFunctionType_failsBy (h : ∀ e, e.isReported = true → bad e) (n : Node) :
    FailsBy (asFunctionType n) bad := by
  cases n <;> first | exact .pure _ | exact .fail (h _ rfl)

theorem asFunctionDefinition_failsBy (h : ∀ e, e.isReported = true → bad e) (n : Node) :
    FailsBy (asFunctionDefinition n) bad := by
  cases n <;> first | exact .pure _ | exact .fail (h _ rfl)

theorem asSourceFile_failsBy (h : ∀ e, e.isReported = true → bad e) (n : Node) :
    FailsBy (asSourceFile n) bad := by
  cases n <;> first | exact .pure _ | exact .fail (h _ rfl)

variable {fields : List (String × Json)} {sub item : NodeReader}
  (h : Covers bad (.object fields))
  (hsub : ∀ x, Inside x (.object fields) → FailsBy (sub x) bad)
  (hitem : ∀ x, Inside x (.object fields) → FailsBy (item x) bad)

include h hsub in
theorem readArray_failsBy : FailsBy (readArray sub (.object fields)) bad :=
  .required h fun _ hx => .bind (hsub _ (inside_of_lookup hx)) fun _ =>
    .requiredInteger h (by simp [numberKeys]) fun _ => .bind .nextCommon fun _ => .pure _

include h hsub in
theorem readBitField_failsBy : FailsBy (readBitField sub (.object fields)) bad :=
  .requiredInteger h (by simp [numberKeys]) fun _ =>
    .required h fun _ hx => .bind (hsub _ (inside_of_lookup hx)) fun _ =>
      .bind .nextCommon fun _ => .pure _

include h in
theorem readBuiltIn_failsBy {hasRoom : Bool} (shallow : hasRoom = false → bad .tooDeep) :
    FailsBy (readBuiltIn hasRoom (.object fields)) bad := by
  refine .required h fun x _ => ?_
  have class_ : FailsBy (liftM (builtInClass x) >>= fun c => do
      return Node.builtIn (← nextCommon) c) bad :=
    .taken (fun e he => h.reported e (oneOf_error he)) fun _ _ => .bind .nextCommon fun _ => .pure _
  cases hasRoom with
  | true => exact class_
  | false => exact .failed (shallow rfl)

include h in
theorem readEnumeration_failsBy : FailsBy (readEnumeration (.object fields)) bad := by
  refine .required h fun v hv => ?_
  refine .taken (fun e he => h.reported e (items_error he)) fun xs hxs => ?_
  refine .bind (.readEach fun x hx => ?_) fun _ => .bind .nextCommon fun _ => .pure _
  exact readConstant_failsBy (h.inside (inside_of_items hv hxs hx))

include hitem in
theorem readOptional_failsBy {key : String} {x : Json}
    (hx : fields.lookup key = some x ∨ x = .null) : FailsBy (readOptional item x) bad := by
  rcases hx with hx | rfl
  · cases x with
    | null => exact .pure _
    | _ => exact .bind (hitem _ (inside_of_lookup hx)) fun _ => .pure _
  · exact .pure _

include h hitem in
theorem readVariableIn_failsBy {x : Json} (hx : Inside x (.object fields)) :
    FailsBy (readVariableIn item x) bad :=
  .bind (hitem x hx) (asVariable_failsBy h.reported)

include h hitem in
theorem readVariables_failsBy (key : String) :
    FailsBy (readItems key (readVariableIn item) (.object fields)) bad :=
  .readItems h fun _ _ _ hv hxs hx => readVariableIn_failsBy h hitem (inside_of_items hv hxs hx)

include h in
/-- A range that holds has to be an object. -/
theorem range_failsBy {range missing : Json} {key : String}
    (hrange : fields.lookup "address_range" = some range ∨ range = .null) {e : Mismatch}
    (he : optional key missing (if range.holds then range else .object []) = .error e) : bad e := by
  split at he
  · next holds =>
      rcases hrange with hrange | rfl
      · cases range with
        | object inner => cases he
        | _ =>
            cases he
            exact h.misfit (.range hrange holds nofun)
      · cases holds
  · cases he

include h hsub hitem in
theorem readFunctionDefinition_failsBy :
    FailsBy (readFunctionDefinition sub item (.object fields)) bad := by
  refine .optional fun range hrange => ?_
  refine .required h fun _ hx => .bind (hsub _ (inside_of_lookup hx)) fun _ =>
    .bind (asFunctionType_failsBy h.reported _) fun _ => ?_
  refine .taken (fun _ he => range_failsBy h hrange he) fun _ _ => ?_
  refine .taken (fun _ he => range_failsBy h hrange he) fun _ _ => .optional fun _ _ => ?_
  refine .bind (readVariables_failsBy h hitem _) fun _ => ?_
  refine .bind (.readItems h fun _ _ _ hv hxs hx =>
    readLineNumber_failsBy (h.inside (inside_of_items hv hxs hx))) fun _ => ?_
  refine .bind (.readItems h fun _ _ _ hv hxs hx =>
    readBreadcrumb_failsBy (h.inside (inside_of_items hv hxs hx))) fun _ => ?_
  exact .bind .nextCommon fun _ => .pure _

include h hitem in
theorem readFunctionType_failsBy : FailsBy (readFunctionType item (.object fields)) bad := by
  have rest (returnType : Option Node) (parameters : Option (List Variable)) : FailsBy (do
      let modifier ← optional "modifier" .null (.object fields)
      let isConstructor ← optionalFlag "is_constructor" false (.object fields)
      let vtableIndex ← optionalInteger "vtable_index" (-1) (.object fields)
      return Node.functionType
        { common := ← nextCommon, returnType, parameters, modifier, isConstructor,
          vtableIndex }) bad :=
    .optional fun _ _ => .optionalFlag fun _ =>
      .optionalInteger h (by simp [numberKeys]) fun _ => .bind .nextCommon fun _ => .pure _
  refine .optional fun given hgiven => .optional fun _ hx => ?_
  refine .bind (readOptional_failsBy hitem hx) fun returnType => ?_
  rcases hgiven with hgiven | rfl
  · cases given with
    | null => exact rest returnType none
    | _ =>
        refine .taken (fun e he => h.reported e (items_error he)) fun xs hxs => ?_
        refine .bind (.map _ (.readEach fun x hx => ?_)) (rest returnType)
        exact readVariableIn_failsBy h hitem (inside_of_items hgiven hxs hx)
  · exact rest returnType none

include h hsub hitem in
theorem readComposite_failsBy (descriptor : String) :
    FailsBy (readComposite descriptor sub item (.object fields)) bad := by
  have nodes (key : String) : FailsBy (readItems key item (.object fields)) bad :=
    .readItems h fun _ _ _ hv hxs hx => hitem _ (inside_of_items hv hxs hx)
  have rest (isRecord : Bool) : FailsBy (do
      let bases ← readItems "base_classes" (readBase sub) (.object fields)
      let fields' ← readItems "fields" item (.object fields)
      let memberFunctions ← readItems "member_functions" item (.object fields)
      return Node.composite (← nextCommon) isRecord bases fields' memberFunctions) bad := by
    refine .bind (.readItems h fun _ _ x hv hxs hx => ?_) fun _ => .bind (nodes _) fun _ =>
      .bind (nodes _) fun _ => .bind .nextCommon fun _ => .pure _
    have inside := inside_of_items hv hxs hx
    exact readBase_failsBy (h.inside inside) (fun y hy => hsub y (hy.trans inside)) fun other =>
      h.misfit (.base hv hxs hx other)
  rw [readComposite]
  split
  · exact .optionalFlag rest
  · exact rest _

include h hsub in
theorem readPointer_failsBy (descriptor : String) :
    FailsBy (readPointer descriptor sub (.object fields)) bad := by
  have rest (isPointer : Bool) : FailsBy (do
      let target ← sub (← required "value_type" (.object fields))
      return Node.pointer (← nextCommon) isPointer target) bad :=
    .required h fun _ hx => .bind (hsub _ (inside_of_lookup hx)) fun _ =>
      .bind .nextCommon fun _ => .pure _
  rw [readPointer]
  split
  · exact .optionalFlag rest
  · exact rest _

include hitem in
theorem readMemberPointer_failsBy : FailsBy (readMemberPointer item (.object fields)) bad :=
  .optional fun _ hx => .bind (readOptional_failsBy hitem hx) fun _ => .optional fun _ hx =>
    .bind (readOptional_failsBy hitem hx) fun _ => .bind .nextCommon fun _ => .pure _

include h in
theorem readTypeName_failsBy : FailsBy (readTypeName (.object fields)) bad := by
  refine .optional fun _ _ => .optionalInteger h (by simp [numberKeys]) fun _ => ?_
  refine .optional fun v hv => ?_
  rcases hv with hv | rfl
  · exact typeNumber_failsBy (h.inside (inside_of_lookup hv))
      (fun other => h.misfit (.typeNumber hv other)) fun _ => .bind .nextCommon fun _ => .pure _
  · exact .taken nofun fun _ _ => .bind .nextCommon fun _ => .pure _

include h hitem in
theorem readSourceFile_failsBy : FailsBy (readSourceFile item (.object fields)) bad := by
  refine .bind (.readItems h fun _ _ _ hv hxs hx =>
    readNumbered_failsBy (h.inside (inside_of_items hv hxs hx))) fun _ => ?_
  refine .required h fun _ _ => .optional fun _ _ => ?_
  refine .optionalInteger h (by simp [numberKeys]) fun _ => ?_
  refine .bind (.readItems h fun _ _ _ hv hxs hx => .bind (hitem _ (inside_of_items hv hxs hx))
    (asFunctionDefinition_failsBy h.reported)) fun _ => ?_
  exact .bind (readVariables_failsBy h hitem _) fun _ => .bind .nextCommon fun _ => .pure _

include h hsub in
theorem readVariable_failsBy : FailsBy (readVariable sub (.object fields)) bad := by
  refine .optional fun _ _ => .taken (fun e he => h.reported e (oneOf_error he)) fun _ _ => ?_
  refine .required h fun _ hx => readStorage_failsBy (h.inside (inside_of_lookup hx)) fun _ => ?_
  exact .required h fun _ hx => .bind (hsub _ (inside_of_lookup hx)) fun _ =>
    .bind .nextCommon fun _ => .pure _

include h hsub hitem in
/-- Every reader that a descriptor names. -/
theorem readerFor_failsBy {hasRoom : Bool} (shallow : hasRoom = false → bad .tooDeep)
    {descriptor : String} {reader : NodeReader}
    (hreader : readerFor? hasRoom sub item descriptor = some reader) :
    FailsBy (reader (.object fields)) bad := by
  unfold readerFor? at hreader
  split at hreader <;> cases hreader
  · exact readArray_failsBy h hsub
  · exact readBitField_failsBy h hsub
  · exact readBuiltIn_failsBy h shallow
  · exact readEnumeration_failsBy h
  · exact readEnumeration_failsBy h
  · exact readFunctionDefinition_failsBy h hsub hitem
  · exact readFunctionType_failsBy h hitem
  · exact readComposite_failsBy h hsub hitem _
  · exact readComposite_failsBy h hsub hitem _
  · exact readComposite_failsBy h hsub hitem _
  · exact readPointer_failsBy h hsub _
  · exact readPointer_failsBy h hsub _
  · exact readPointer_failsBy h hsub _
  · exact readMemberPointer_failsBy hitem
  · exact readSourceFile_failsBy h hitem
  · exact readTypeName_failsBy h
  · exact readVariable_failsBy h hsub

end Nodes

/-! ## Nodes inside one another -/

theorem allows_eq_false_iff {room : Room} {calls : Nat} :
    room.allows calls = false ↔ ∃ n, room = some n ∧ n < calls := by
  cases room with
  | none => exact ⟨nofun, nofun⟩
  | some n => simp [Room.allows]

section Levels

variable {bad : Mismatch → Prop}

theorem readDescribed_failsBy {hasRoom : Bool} {sub item : NodeReader} {v : Json}
    (h : Covers bad v) (hsub : ∀ x, Inside x v → FailsBy (sub x) bad)
    (hitem : ∀ x, Inside x v → FailsBy (item x) bad)
    (shallow : hasRoom = false → 0 < v.depth → bad .tooDeep) :
    FailsBy (readDescribed hasRoom sub item v) bad := by
  refine .atField h fun fields hv => ?_
  subst hv
  have rest {reader : NodeReader} (hreader : FailsBy (reader (.object fields)) bad) : FailsBy (do
      let node ← reader (.object fields)
      let common ← readCommon node.common.serial (.object fields)
      return node.withCommon common) bad :=
    .bind hreader fun _ => readCommon_failsBy h _ fun _ => .pure _
  refine .required h fun descriptor _ => ?_
  cases descriptor with
  | text s =>
      dsimp only
      split
      · next reader hreader =>
          exact rest <|
            readerFor_failsBy h hsub hitem (fun hr => shallow hr (Nat.succ_pos _)) hreader
      · exact .failed (h.reported _ rfl)
  | _ => exact .failed (h.reported _ rfl)

/-- A level of the value takes three of the room at most. -/
theorem readWithin_failsBy : (room : Nat) → {v : Json} → Covers bad v →
    (room < 3 * v.depth + 3 → bad .tooDeep) → FailsBy (readWithin room v) bad
  | 0, _, _, deep | 1, _, _, deep | 2, _, _, deep => .fail (deep (by omega))
  | room + 3, v, h, deep => by
      rw [readWithin]
      refine readDescribed_failsBy h (fun x hx => ?_) (fun x hx => ?_) fun hroom hv => deep ?_
      · have := hx.depth
        exact readWithin_failsBy (room + 1) (h.inside hx) fun _ => deep (by omega)
      · have := hx.depth
        exact readWithin_failsBy room (h.inside hx) fun _ => deep (by omega)
      · have : ¬ 0 < room := of_decide_eq_false hroom
        omega

theorem readNode_failsBy {room : Room} {v : Json} (h : Covers bad v)
    (deep : room.allows (3 * v.depth + 5) = false → bad .tooDeep) :
    FailsBy (readNode room v) bad := by
  refine readWithin_failsBy _ h fun hroom => deep (allows_eq_false_iff.mpr ?_)
  cases room with
  | none => exact absurd hroom (Nat.lt_irrefl _)
  | some n =>
      have hroom : n - 2 < 3 * v.depth + 3 := hroom
      exact ⟨n, rfl, by omega⟩

theorem readDocument_failsBy {room : Room} {fields : List (String × Json)}
    (h : Covers bad (.object fields))
    (deep : room.allows (3 * (Json.object fields).depth + 4) = false → bad .tooDeep) :
    FailsBy (readDocument room (.object fields)) bad := by
  have node (x : Json) (hx : Inside x (.object fields)) :
      FailsBy (readNode (room.inside 1) x) bad := by
    refine readNode_failsBy (h.inside hx) fun full => deep (allows_eq_false_iff.mpr ?_)
    obtain ⟨m, hm, hlt⟩ := allows_eq_false_iff.mp full
    obtain ⟨n, rfl, rfl⟩ := Option.map_eq_some_iff.mp hm
    have := hx.depth
    exact ⟨n, rfl, by omega⟩
  refine .required h fun v hv => .taken (fun e he => h.reported e (items_error he)) fun xs hxs => ?_
  refine .bind (.readEach fun x hx => .bind (node x (inside_of_items hv hxs hx))
    (asSourceFile_failsBy h.reported)) fun _ => ?_
  refine .optionalItems h fun xs hxs => .bind (.readEach fun x hx => ?_) fun _ => ?_
  · obtain ⟨v, hv, hitems⟩ := hxs x hx
    exact node x (inside_of_items hv hitems hx)
  · exact nofun

end Levels

/-! ## Documents -/

/-- What the reader of a text does not answer for: limits of the text, a field of an object in it
that is asked for what it does not have, and more levels than there is room for. -/
inductive Uncaught (room : Room) (text : List Char) : Fault → Prop
  | limit {e : Json.Fault} : Json.read (room.inside 5) text = .error e →
      e.defect.isGrammar = false → Uncaught room text (.notJson text e)
  | misfit {root : Json} {m : Mismatch} : Json.read (room.inside 5) text = .ok root →
      Escapes root m → Uncaught room text (.malformed m)
  | deep {root : Json} : Json.read (room.inside 5) text = .ok root →
      room.allows (3 * root.depth + 5) = false → Uncaught room text (.malformed .tooDeep)

variable {room : Room} {text : List Char}

/-- None of it is an error of the format. -/
theorem Uncaught.not_isFormat {e : Fault} (h : Uncaught room text e) : e.isFormat = false := by
  cases h with
  | limit _ he => exact he
  | misfit _ hm =>
      obtain ⟨fields, -, hmisfit⟩ := hm
      cases hmisfit <;> rfl
  | deep _ _ => rfl

/-- A warning takes no more room than the document. -/
theorem warnings_error {fields : List (String × Json)} {e : Fault}
    (h : warnings (room.inside 1) (.object fields) = .error e) :
    e = .malformed .tooDeep ∧ room.allows (3 * (Json.object fields).depth + 5) = false := by
  have version : (((Json.object fields).field? "version").getD .null).depth <
      (Json.object fields).depth := by
    rw [Json.field?]
    cases hv : fields.lookup "version" with
    | none => exact Nat.succ_pos _
    | some v => exact (inside_of_lookup hv).depth
  unfold warnings at h
  split at h
  · cases h
  · dsimp only at h
    split at h
    · cases h
    · next hroom =>
        cases h
        refine ⟨rfl, allows_eq_false_iff.mpr ?_⟩
        obtain ⟨m, hm, hlt⟩ := allows_eq_false_iff.mp (Bool.not_eq_true _ ▸ hroom)
        obtain ⟨n, rfl, rfl⟩ := Option.map_eq_some_iff.mp hm
        simp only [warningCalls] at hlt
        exact ⟨n, rfl, by omega⟩

theorem read_ends (room : Room) (text : List Char) :
    (∃ d, (read room text).2 = .ok d) ∨
      ∃ e, (read room text).2 = .error e ∧ (e.isFormat = true ∨ Uncaught room text e) := by
  unfold read
  cases hroot : Json.read (room.inside 5) text with
  | error e =>
      refine .inr ⟨_, rfl, ?_⟩
      cases hgrammar : e.defect.isGrammar with
      | true => exact .inl hgrammar
      | false => exact .inr (.limit hroot hgrammar)
  | ok root =>
      cases root with
      | object fields =>
          dsimp only
          cases hwarn : warnings (room.inside 1) (.object fields) with
          | error e =>
              obtain ⟨rfl, full⟩ := warnings_error hwarn
              exact .inr ⟨_, rfl, .inr (.deep hroot full)⟩
          | ok given =>
              dsimp only
              have fails : FailsBy (readDocument (room.inside 1) (.object fields)) fun m =>
                  m.isReported = true ∨ Uncaught room text (.malformed m) := by
                refine readDocument_failsBy
                  ⟨fun m => .inl, fun m hm => .inr (.misfit hroot hm)⟩ fun full => ?_
                obtain ⟨m, hm, hlt⟩ := allows_eq_false_iff.mp full
                obtain ⟨n, rfl, rfl⟩ := Option.map_eq_some_iff.mp hm
                exact .inr (.deep hroot (allows_eq_false_iff.mpr ⟨n, rfl, by omega⟩))
              cases hdoc : (readDocument (room.inside 1) (.object fields)).run 0 with
              | ok d => exact .inl ⟨d.1, rfl⟩
              | error m => exact .inr ⟨_, rfl, fails 0 m hdoc⟩
      | _ => exact .inr ⟨_, rfl, .inl rfl⟩

/-- Bytes are a document, or what the reader says of them is an error of the format, or they have
what it does not answer for. -/
theorem readBytes_ends (room : Room) (bytes : Text.Bytes) :
    (∃ d, (readBytes room bytes).2 = .ok d) ∨
      ∃ e, (readBytes room bytes).2 = .error e ∧
        (e.isFormat = true ∨ Uncaught room (Text.decodeUtf8 bytes) e) :=
  read_ends room (Text.decodeUtf8 bytes)

/-- An array of infinitely many elements. -/
def endlessText : List String :=
  ["\x7b\"files\":[],\"deduplicated_types\":[\x7b\"descriptor\":\"array\",",
   "\"element_type\":\x7b\"descriptor\":\"builtin\",\"class\":\"8-bit integer\"\x7d,",
   "\"element_count\":Infinity\x7d]\x7d"]

/-- A structure whose base class is none. -/
def baselessText : List String :=
  ["\x7b\"files\":[],\"deduplicated_types\":[\x7b\"descriptor\":\"struct\",",
   "\"base_classes\":[null]\x7d]\x7d"]

/-- The bytes of a text that has no character that takes more than one. -/
def bytesOf (text : List String) : Text.Bytes :=
  (text.flatMap String.toList).map fun c => c.toNat.toUInt8

def fault? : Except Fault Document → Option Fault
  | .error e => some e
  | .ok _ => none

/-- A fault can escape that is no error of the format. -/
theorem readBytes_escapes :
    fault? (readBytes .usual (bytesOf endlessText)).2 = some (.malformed .infinite) ∧
      (Fault.malformed .infinite).title = "OverflowError" ∧
      fault? (readBytes .usual (bytesOf baselessText)).2 = some (.malformed .noFields) ∧
      (Fault.malformed .noFields).title = "AttributeError" :=
  ⟨by decide +kernel, rfl, by decide +kernel, rfl⟩

end StabsImport.Document
