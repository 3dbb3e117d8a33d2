import StabsImport.Proofs.Barren
import StabsImport.Proofs.Respelling

/-!
# Numbers tell the nodes of a document apart

The reader gives every node a number of its own, one after another. So no two nodes that stand in the
document it makes, of those that types are recorded for, have one number. Main statement:
`isNumbered_of_readBytes`.
-/

namespace StabsImport.Document

open Import (typeNodes)

/-! ## Numbers given one after another -/

/-- The numbers are given from `n` on and before `n'`, none of them twice. -/
structure Spans (n n' : Nat) (l : List Nat) : Prop where
  le : n ≤ n'
  count (σ : Nat) : l.count σ ≤ if n ≤ σ ∧ σ < n' then 1 else 0

namespace Spans

variable {n m k : Nat} {l l' : List Nat}

theorem nil (n : Nat) : Spans n n [] := ⟨Nat.le_refl n, fun _ => Nat.zero_le _⟩

/-- What is given later comes after. -/
theorem append (h : Spans n m l) (h' : Spans m k l') : Spans n k (l ++ l') where
  le := Nat.le_trans h.le h'.le
  count σ := by
    have first := h.count σ
    have second := h'.count σ
    have := h.le
    have := h'.le
    rw [List.count_append]
    split at first <;> split at second <;> split <;> omega

theorem next (h : Spans n m l) : Spans n (m + 1) (l ++ [m]) :=
  h.append ⟨Nat.le_succ m, fun σ => by
    rw [List.count_singleton]
    split <;> split <;> simp_all⟩

/-- Numbers may be left out, and stand in another order. -/
theorem fewer (h : Spans n m l) (fewer : ∀ σ, l'.count σ ≤ l.count σ) : Spans n m l' :=
  ⟨h.le, fun σ => Nat.le_trans (fewer σ) (h.count σ)⟩

theorem nodup (h : Spans n m l) : l.Nodup := by
  refine List.nodup_iff_count_le_one.mpr fun σ => Nat.le_trans (h.count σ) ?_
  split <;> decide

end Spans

/-- To the numbers `given` by then, the reader adds those of its result, which takes in them all. -/
def Numbers {α : Type} (given : List Nat) (of : α → List Nat) (m : Reading α) : Prop :=
  ∀ k n a n', Spans k n given → m n = .ok (a, n') → Spans k n' (of a)

namespace Numbers

variable {α β : Type} {given : List Nat} {of : α → List Nat} {of' : β → List Nat}

theorem pure {a : α} (fewer : ∀ σ, (of a).count σ ≤ given.count σ) :
    Numbers given of (pure a : Reading α) := by
  rintro k n _ _ h ⟨⟩
  exact h.fewer fewer

theorem fail (e : Mismatch) : Numbers given of (fail e : Reading α) := nofun

theorem bind {m : Reading α} {f : α → Reading β} (hm : Numbers [] of m)
    (hf : ∀ a, Numbers (given ++ of a) of' (f a)) : Numbers given of' (m >>= f) := by
  intro k n b n' h hb
  simp only [Bind.bind, StateT.bind, Except.bind] at hb
  split at hb
  · cases hb
  · next r hr =>
      exact hf _ k _ b n' (h.append (hm n n r.1 r.2 (.nil n) hr)) hb

/-- The second takes over from the first. -/
theorem onto {m : Reading α} {f : α → Reading β} (hm : Numbers given of m)
    (hf : ∀ a, Numbers (of a) of' (f a)) : Numbers given of' (m >>= f) := by
  intro k n b n' h hb
  simp only [Bind.bind, StateT.bind, Except.bind] at hb
  split at hb
  · cases hb
  · next r hr => exact hf _ k _ b n' (hm k n r.1 r.2 h hr) hb

theorem failed (e : Mismatch) (f : α → Reading β) : Numbers given of' (Document.fail e >>= f) :=
  nofun

theorem taken {r : Taken α} {f : α → Reading β} (hf : ∀ a, r = .ok a → Numbers given of' (f a)) :
    Numbers given of' (liftM r >>= f) := by
  cases r with
  | ok a => exact hf a rfl
  | error e => exact failed e f

theorem lift {r : Taken α} {f : α → Reading β} (hf : ∀ a, Numbers given of' (f a)) :
    Numbers given of' (liftM r >>= f) := taken fun a _ => hf a

/-- What has no numbers adds none. -/
theorem lifted (r : Taken α) : Numbers [] (fun _ => []) (liftM r : Reading α) := by
  rw [← bind_pure (liftM r : Reading α)]
  exact lift fun _ => .pure fun _ => Nat.le_refl _

theorem nextCommon {f : Common → Reading β}
    (hf : ∀ n, Numbers (given ++ [n]) of' (f { serial := n })) :
    Numbers given of' (nextCommon >>= f) := fun k n b n' h hb => hf n k (n + 1) b n' h.next hb

theorem map {m : Reading α} (f : α → β) (hm : Numbers [] (fun a => of' (f a)) m) :
    Numbers [] of' (f <$> m) := by
  rw [← bind_pure_comp]
  exact hm.bind fun _ => .pure fun _ => Nat.le_refl _

theorem readEach {read : Json → Reading α} (h : ∀ x, Numbers [] of (read x)) (xs : List Json) :
    Numbers [] (·.flatMap of) (readEach read xs) := by
  induction xs with
  | nil => exact .pure fun _ => Nat.le_refl _
  | cons x xs ih =>
      refine (h x).bind fun a => ih.bind fun as => .pure fun σ => Nat.le_of_eq ?_
      rw [List.nil_append, List.flatMap_cons]

theorem readItems {read : Json → Reading α} (h : ∀ x, Numbers [] of (read x)) (key : String)
    (v : Json) : Numbers [] (·.flatMap of) (readItems key read v) :=
  lift fun xs => .readEach h xs

end Numbers

/-! ## The numbers of nodes -/

theorem count_flatMap_le {α : Type} {f g : α → List Nat} {σ : Nat}
    (h : ∀ a, (f a).count σ ≤ (g a).count σ) (l : List α) :
    (l.flatMap f).count σ ≤ (l.flatMap g).count σ := by
  induction l with
  | nil => exact Nat.le_refl _
  | cons a l ih =>
      simp only [List.flatMap_cons, List.count_append]
      exact Nat.add_le_add (h a) ih

namespace Node

def serialsOfVariable (v : Variable) : List Nat := v.type.serials

def serialsOfFunction (f : FunctionDefinition) : List Nat :=
  (functionType f.type).serials ++ f.locals.flatMap serialsOfVariable

def serialsOfFile (f : SourceFile) : List Nat :=
  f.functions.flatMap serialsOfFunction ++ f.globals.flatMap serialsOfVariable

/-- The numbers of a node, also where it is the node of a variable, a function or a file. -/
def allSerials : Node → List Nat
  | variable_ v => serialsOfVariable v
  | functionDefinition d => serialsOfFunction d
  | sourceFile f => serialsOfFile f
  | n => n.serials

theorem count_serials_le (n : Node) (σ : Nat) : n.serials.count σ ≤ n.allSerials.count σ := by
  cases n <;> simp [allSerials, serials]

theorem allSerials_withCommon {n : Node} {c : Common} (h : c.serial = n.common.serial) :
    (n.withCommon c).allSerials = n.allSerials := by
  cases n <;>
    simp_all [withCommon, allSerials, serials, common, serialsOfVariable, serialsOfFunction, serialsOfFile]

end Node

/-! ## The readers of nodes -/

section Readers

open Node

variable {sub item : NodeReader} (hsub : ∀ v, Numbers [] allSerials (sub v))
  (hitem : ∀ v, Numbers [] allSerials (item v))

theorem asVariable_numbers (n : Node) :
    Numbers n.allSerials serialsOfVariable (asVariable n) := by
  cases n <;> first | exact .pure fun _ => Nat.le_refl _ | exact .fail _

include hsub in
theorem readVariableIn_numbers (v : Json) :
    Numbers [] serialsOfVariable (readVariableIn sub v) :=
  (hsub v).bind asVariable_numbers

theorem asFunctionType_numbers (n : Node) :
    Numbers n.allSerials (fun f => (functionType f).serials) (asFunctionType n) := by
  cases n <;> first | exact .pure fun _ => Nat.le_refl _ | exact .fail _

theorem asFunctionDefinition_numbers (n : Node) :
    Numbers n.allSerials serialsOfFunction (asFunctionDefinition n) := by
  cases n <;> first | exact .pure fun _ => Nat.le_refl _ | exact .fail _

theorem asSourceFile_numbers (n : Node) :
    Numbers n.allSerials serialsOfFile (asSourceFile n) := by
  cases n <;> first | exact .pure fun _ => Nat.le_refl _ | exact .fail _

/-- A node takes the next number once its parts have been read, whether it keeps it or not. -/
theorem Numbers.made {given : List Nat} {make : Common → Node}
    (made : ∀ n σ, (make { serial := n }).allSerials.count σ ≤ (given ++ [n]).count σ) :
    Numbers given allSerials (Document.nextCommon >>= fun c => Pure.pure (make c)) :=
  .nextCommon fun n => .pure (made n)

/-- The node of a part keeps the numbers of the part. -/
theorem Numbers.madeOf {n : Node} {make : Common → Node}
    (same : ∀ c, (make c).allSerials = n.serials) :
    Numbers n.allSerials allSerials (Document.nextCommon >>= fun c => Pure.pure (make c)) :=
  .made fun k σ => by
    rw [same, List.count_append]
    exact Nat.le_add_right_of_le (n.count_serials_le σ)

include hsub in
theorem readArray_numbers (v : Json) : Numbers [] allSerials (readArray sub v) :=
  .lift fun _ => (hsub _).bind fun _ => .lift fun _ => .lift fun _ => .madeOf fun _ => rfl

include hsub in
theorem readBitField_numbers (v : Json) : Numbers [] allSerials (readBitField sub v) :=
  .lift fun _ => .lift fun _ => .lift fun _ => (hsub _).bind fun _ => .madeOf fun _ => rfl

theorem readBuiltIn_numbers (hasRoom : Bool) (v : Json) :
    Numbers [] allSerials (readBuiltIn hasRoom v) := by
  refine .lift fun _ => ?_
  cases hasRoom with
  | true => exact .lift fun _ => .made fun _ _ => Nat.zero_le _
  | false => exact fun _ _ _ _ _ h => by cases h

theorem readEnumeration_numbers (v : Json) : Numbers [] allSerials (readEnumeration v) := by
  have constant (v : Json) : Numbers [] (fun _ => []) (readConstant v) :=
    .lift fun _ => .lift fun _ => .lift fun _ => .pure fun _ => Nat.le_refl _
  refine .lift fun _ => .lift fun _ => (Numbers.readEach constant _).bind fun _ => ?_
  exact .made fun n σ => by simp [allSerials, serials]

theorem readChoice_numbers (general flag one descriptor : String) (v : Json) :
    Numbers [] (fun _ => []) (readChoice general flag one descriptor v) := by
  unfold readChoice
  split
  · exact .lifted _
  · exact .pure fun _ => Nat.le_refl _

include hsub in
theorem readPointer_numbers (descriptor : String) (v : Json) :
    Numbers [] allSerials (readPointer descriptor sub v) := by
  rw [readPointer_eq]
  exact (readChoice_numbers _ _ _ _ v).bind fun _ => .lift fun _ => (hsub _).bind fun _ =>
    .madeOf fun _ => rfl

include hsub in
theorem readVariable_numbers (v : Json) : Numbers [] allSerials (readVariable sub v) :=
  .lift fun _ => .lift fun _ => .lift fun _ => .lift fun _ => .lift fun _ => (hsub _).bind fun _ =>
    .madeOf fun _ => rfl

theorem readTypeName_numbers (v : Json) : Numbers [] allSerials (readTypeName v) :=
  .lift fun _ => .lift fun _ => .lift fun _ => .lift fun _ => .made fun _ _ => Nat.zero_le _

include hitem in
theorem readOptional_numbers (v : Json) : Numbers [] serialsOfOption (readOptional item v) := by
  unfold readOptional
  split
  · exact .pure fun _ => Nat.le_refl _
  · exact (hitem _).bind fun n => .pure fun σ => by
      rw [List.nil_append]
      exact n.count_serials_le σ

include hitem in
theorem readMemberPointer_numbers (v : Json) :
    Numbers [] allSerials (readMemberPointer item v) :=
  .lift fun _ => (readOptional_numbers hitem _).bind fun _ => .lift fun _ =>
    (readOptional_numbers hitem _).bind fun _ => .made fun _ _ => Nat.zero_le _

include hsub in
theorem readBase_numbers (v : Json) :
    Numbers [] (fun b => b.type.allSerials) (readBase sub v) :=
  .lift fun _ => .lift fun _ => .lift fun _ => .lift fun _ => (hsub _).bind fun _ =>
    .pure fun _ => Nat.le_refl _

include hsub hitem in
theorem readComposite_numbers (descriptor : String) (v : Json) :
    Numbers [] allSerials (readComposite descriptor sub item v) := by
  have nodes (key : String) : Numbers [] (·.flatMap allSerials) (readItems key item v) :=
    .readItems hitem key v
  rw [readComposite_eq]
  refine (readChoice_numbers _ _ _ _ v).bind fun isRecord => ?_
  refine (Numbers.readItems (readBase_numbers hsub) _ v).bind fun bases => ?_
  refine (nodes _).bind fun fields => (nodes _).bind fun _ => .made fun n σ => ?_
  have ofBases := count_flatMap_le (fun b : Base => b.type.count_serials_le σ) bases
  have ofFields : (fields.flatMap (·.serials)).count σ ≤ (fields.flatMap allSerials).count σ :=
    count_flatMap_le (fun f => f.count_serials_le σ) fields
  show (serials _).count σ ≤ _
  cases isRecord <;>
  · simp [serials, serialsOfBases_eq, Import.Regular.serialsOfNodes_eq, List.flatMap_map,
      List.count_cons]
    omega

theorem count_serialsOfFunctionType (f : FunctionType) (σ : Nat) :
    (functionType f).serials.count σ = [f.common.serial].count σ +
      (serialsOfOption f.returnType).count σ +
        ((f.parameters.getD []).flatMap serialsOfVariable).count σ := by
  obtain ⟨c, returnType, parameters, _, _, _⟩ := f
  have ofVariables (vs : List Variable) : serialsOfVariables vs = vs.flatMap serialsOfVariable := by
    rw [serialsOfVariables_eq, List.flatMap_map]
    rfl
  cases parameters <;>
    simp [serials, serialsOfParameters, ofVariables, List.count_cons, Nat.add_comm, Nat.add_left_comm]

include hitem in
theorem readParameters_numbers (v : Json) :
    Numbers [] (fun ps => (ps.getD []).flatMap serialsOfVariable) (readParameters item v) := by
  unfold readParameters
  split
  · exact .pure fun _ => Nat.le_refl _
  · exact .lift fun _ => .map _ (.readEach (readVariableIn_numbers hitem) _)

include hitem in
theorem readFunctionType_numbers (v : Json) :
    Numbers [] allSerials (readFunctionType item v) := by
  rw [readFunctionType_eq]
  refine .lift fun _ => .lift fun _ => (readOptional_numbers hitem _).bind fun returnType => ?_
  refine (readParameters_numbers hitem _).bind fun parameters => ?_
  refine .lift fun _ => .lift fun _ => .lift fun _ => .made fun n σ => ?_
  show (serials _).count σ ≤ _
  rw [count_serialsOfFunctionType]
  simp only [List.count_append, List.nil_append]
  omega

include hsub hitem in
theorem readFunctionDefinition_numbers (v : Json) :
    Numbers [] allSerials (readFunctionDefinition sub item v) := by
  have line (v : Json) : Numbers [] (fun _ => []) (readLineNumber v) :=
    .lift fun _ => .lift fun _ => .lift fun _ => .lift fun _ => .pure fun _ => Nat.le_refl _
  have breadcrumb (v : Json) : Numbers [] (fun _ => []) (readBreadcrumb v) :=
    .lift fun _ => .lift fun _ => .lift fun _ => .pure fun _ => Nat.le_refl _
  refine .lift fun _ => .lift fun _ => (hsub _).bind fun n => (asFunctionType_numbers n).onto fun _ => ?_
  refine .lift fun _ => .lift fun _ => .lift fun _ => ?_
  refine (Numbers.readItems (readVariableIn_numbers hitem) _ v).bind fun _ => ?_
  refine (Numbers.readItems line _ v).bind fun _ => ?_
  refine (Numbers.readItems breadcrumb _ v).bind fun _ => .made fun n σ => ?_
  show (serialsOfFunction _).count σ ≤ _
  simp only [serialsOfFunction, List.count_append]
  omega

include hitem in
theorem readSourceFile_numbers (v : Json) :
    Numbers [] allSerials (readSourceFile item v) := by
  have numbered (v : Json) : Numbers [] (fun _ => []) (readNumbered v) :=
    .lift fun _ => .lift fun _ => .lift fun _ => .lift fun _ => .lift fun _ =>
      .pure fun _ => Nat.le_refl _
  have function (v : Json) :
      Numbers [] serialsOfFunction (do asFunctionDefinition (← item v)) :=
    (hitem v).bind asFunctionDefinition_numbers
  refine (Numbers.readItems numbered _ v).bind fun _ => .lift fun _ => .lift fun _ => .lift fun _ => ?_
  refine (Numbers.readItems function _ v).bind fun _ => ?_
  refine (Numbers.readItems (readVariableIn_numbers hitem) _ v).bind fun _ => .made fun n σ => ?_
  show (serialsOfFile _).count σ ≤ _
  simp only [serialsOfFile, List.count_append]
  omega

include hsub hitem in
/-- Every reader that a descriptor names. -/
theorem readerFor_numbers {hasRoom : Bool} {descriptor : String} {reader : NodeReader}
    (hreader : readerFor? hasRoom sub item descriptor = some reader) (v : Json) :
    Numbers [] allSerials (reader v) := by
  unfold readerFor? at hreader
  split at hreader <;> cases hreader
  · exact readArray_numbers hsub v
  · exact readBitField_numbers hsub v
  · exact readBuiltIn_numbers hasRoom v
  · exact readEnumeration_numbers v
  · exact readEnumeration_numbers v
  · exact readFunctionDefinition_numbers hsub hitem v
  · exact readFunctionType_numbers hitem v
  · exact readComposite_numbers hsub hitem _ v
  · exact readComposite_numbers hsub hitem _ v
  · exact readComposite_numbers hsub hitem _ v
  · exact readPointer_numbers hsub _ v
  · exact readPointer_numbers hsub _ v
  · exact readPointer_numbers hsub _ v
  · exact readMemberPointer_numbers hitem v
  · exact readSourceFile_numbers hitem v
  · exact readTypeName_numbers v
  · exact readVariable_numbers hsub v

theorem serial_of_readCommon {n : Nat} {v : Json} {c : Common} (h : readCommon n v = .ok c) :
    c.serial = n := by
  simp only [readCommon, bind, Except.bind] at h
  repeat' split at h
  all_goals cases h <;> rfl

include hsub hitem in
theorem readDescribed_numbers (hasRoom : Bool) (v : Json) :
    Numbers [] allSerials (readDescribed hasRoom sub item v) := by
  have finish (n : Node) : Numbers n.allSerials allSerials (finish v n) := by
    refine .taken fun c hc => .pure fun σ => Nat.le_of_eq ?_
    rw [allSerials_withCommon (serial_of_readCommon hc)]
  refine .lift fun descriptor => ?_
  cases descriptor with
  | text s =>
      dsimp only
      split
      · next reader hreader =>
          exact (readerFor_numbers hsub hitem hreader v).onto finish
      · exact .failed _ _
  | _ => exact .failed _ _

end Readers

theorem readWithin_numbers (room : Nat) (v : Json) :
    Numbers [] Node.allSerials (readWithin room v) := by
  induction room using Nat.strongRecOn generalizing v with
  | ind room ih =>
      rcases room with _ | _ | _ | room
      · exact .fail _
      · exact .fail _
      · exact .fail _
      · exact readDescribed_numbers (ih _ (by omega)) (ih _ (by omega)) _ v

theorem readDocument_numbers (room : Room) (root : Json) :
    Numbers [] (fun d => Node.serialsOfNodes (typeNodes d)) (readDocument room root) := by
  have node (v : Json) : Numbers [] Node.allSerials (readNode (room.inside 1) v) :=
    readWithin_numbers _ v
  have file (v : Json) :
      Numbers [] Node.serialsOfFile (do asSourceFile (← readNode (room.inside 1) v)) :=
    (node v).bind asSourceFile_numbers
  refine .lift fun _ => .lift fun _ => (Numbers.readEach file _).bind fun files => ?_
  refine .lift fun _ => (Numbers.readEach node _).bind fun types => ?_
  intro k n d n' h hd
  cases hd
  refine h.fewer fun σ => ?_
  have ofTypes : (types.flatMap (·.serials)).count σ ≤ (types.flatMap Node.allSerials).count σ :=
    count_flatMap_le (fun n => n.count_serials_le σ) types
  have ofFiles : files.flatMap (fun file =>
      (file.functions.flatMap (fun f => Node.functionType f.type :: f.locals.map (·.type)) ++
        file.globals.map (·.type)).flatMap (·.serials)) = files.flatMap Node.serialsOfFile := by
    simp only [List.flatMap_append, List.flatMap_assoc, List.flatMap_cons, List.flatMap_map]
    rfl
  show (Node.serialsOfNodes (typeNodes _)).count σ ≤ _
  rw [Import.Regular.serialsOfNodes_eq, typeNodes, List.flatMap_append, List.flatMap_assoc, ofFiles]
  simp only [List.count_append]
  omega

/-- A document that was read has numbers that tell its nodes apart. -/
theorem isNumbered_of_readBytes {room : Room} {bytes : Text.Bytes} {d : StabsImport.Document}
    (h : (readBytes room bytes).2 = .ok d) : d.IsNumbered := by
  rw [readBytes, read] at h
  repeat' split at h
  all_goals cases h
  next hd => exact isNumbered_of_nodup (readDocument_numbers _ _ 0 0 _ _ (.nil 0) hd).nodup

end StabsImport.Document
