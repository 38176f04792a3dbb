import ScriptHost.Proofs.Wasm.Text.Places
import ScriptHost.Wasm.Text.Encode

/-!
# Places and the binary

The binary of a module does not depend on where its fields stand in a text: fields that stand at
other places have the same one, or the same mistake at the place that its own is moved to
(`encodeFields_move`).
-/

namespace ScriptHost.Wasm.Text

open Binary

variable {f : Nat → Nat}

/-! ## Results with mistakes -/

section Results

variable {α β ε ε' : Type} (m : ε → ε')

@[simp]
theorem mapError_ok (a : α) : (Except.ok a : Except ε α).mapError m = .ok a := rfl

@[simp]
theorem mapError_pure (a : α) : (pure a : Except ε α).mapError m = pure a := rfl

@[simp]
theorem mapError_error (e : ε) : (Except.error e : Except ε α).mapError m = .error (m e) := rfl

@[simp]
theorem mapError_bind (x : Except ε α) (k : α → Except ε β) :
    (x >>= k).mapError m = x.mapError m >>= fun a => (k a).mapError m := by
  cases x <;> rfl

@[simp]
theorem mapError_map (k : α → β) (x : Except ε α) : (k <$> x).mapError m = k <$> x.mapError m := by
  cases x <;> rfl

@[simp]
theorem mapError_mapM (k : α → Except ε β) (as : List α) :
    (as.mapM k).mapError m = as.mapM fun a => (k a).mapError m := by
  induction as with
  | nil => rfl
  | cons a as ih => simp [ih]

@[simp]
theorem mapError_foldlM (k : β → α → Except ε β) (b : β) (as : List α) :
    (as.foldlM k b).mapError m = as.foldlM (fun b a => (k b a).mapError m) b := by
  induction as generalizing b with
  | nil => rfl
  | cons a as ih => simp [ih]

end Results

/-! ## Types and names -/

theorem map_fst_moveNamed (types : List (Option Id × UInt8)) :
    (moveNamed f types).map (·.1) = (types.map (·.1)).map (Option.map (Id.move f)) := by
  rw [moveNamed, List.map_map, List.map_map]
  rfl

@[simp]
theorem map_snd_moveNamed (types : List (Option Id × UInt8)) :
    (moveNamed f types).map (·.2) = types.map (·.2) := by
  rw [moveNamed, List.map_map]
  rfl

@[simp]
theorem Signature.key_move (s : Signature) : (s.move f).key = s.key := by
  simp [Signature.key, Signature.move]

@[simp]
theorem TypeUse.ref_move (u : TypeUse) : (u.move f).ref = u.ref.map (Ref.move f) := rfl

@[simp]
theorem TypeUse.key_move (u : TypeUse) : (u.move f).key = u.key := by
  obtain ⟨_, _, _ | s⟩ := u
  · rfl
  · simp [TypeUse.key, TypeUse.move]

@[simp]
theorem TypeUse.isWide_move (u : TypeUse) : (u.move f).isWide = u.isWide := by
  simp [TypeUse.isWide]

@[simp]
theorem Instr.keys_move (i : Instr) : (i.move f).keys = i.keys := by
  cases i with
  | plain opcode operands =>
    rw [Instr.move, Instr.keys, Instr.keys, List.filterMap_map]
    congr 1
    funext o
    cases o <;> simp [Operand.move]
  | enter opcode label u => simp [Instr.move, Instr.keys]
  | otherwise _ | leave _ => rfl

@[simp]
theorem codeKeys_moveCode (code : Code) : codeKeys (moveCode f code) = codeKeys code := by
  simp [codeKeys, moveCode, List.flatMap_map]

@[simp]
theorem Mode.keys_move (mode : Mode) : (mode.move f).keys = mode.keys := by
  cases mode <;> simp [Mode.move, Mode.keys]

@[simp]
theorem Content.keys_move (c : Content) : (c.move f).keys = c.keys := by
  cases c with
  | «import» module name wanted => cases wanted <;> simp [Content.move, Wanted.move, Content.keys]
  | elements mode items =>
    cases items <;> simp [Content.move, Items.move, Content.keys, List.flatMap_map]
  | _ => simp [Content.move, Content.keys]

@[simp]
theorem Content.space?_move (c : Content) : (c.move f).space? = c.space? := by
  cases c with
  | «import» module name wanted => cases wanted <;> rfl
  | _ => rfl

@[simp]
theorem Content.defined?_move (c : Content) : (c.move f).defined? = c.defined? := by
  cases c <;> rfl

/-! ## Fields -/

@[simp]
theorem Field.content_move (field : Field) : (field.move f).content = field.content.move f := rfl

@[simp]
theorem Field.id_move (field : Field) : (field.move f).id = field.id.map (Id.move f) := rfl

theorem filter_space_move (space : Space) (fields : List Field) :
    (fields.map (Field.move f)).filter (fun g => g.content.space? = some space) =
      (fields.filter fun g => g.content.space? = some space).map (Field.move f) := by
  rw [List.filter_map]
  congr 2
  funext g
  simp

@[simp]
theorem countIn_move (space : Space) (fields : List Field) :
    countIn space (fields.map (Field.move f)) = countIn space fields := by
  rw [countIn, filter_space_move, List.length_map]
  rfl

theorem addField_move (before : List Field) (field : Field) :
    addField (before.map (Field.move f)) (field.move f) =
      (addField before field).map (Field.move f) := by
  simp only [addField, Field.content_move, Content.space?_move, countIn_move, List.map_append,
    List.map_map]
  obtain ⟨id, place, exports, content, _ | _ | _⟩ := field <;> rfl

theorem foldl_addField_move (before fields : List Field) :
    (fields.map (Field.move f)).foldl addField (before.map (Field.move f)) =
      (fields.foldl addField before).map (Field.move f) := by
  induction fields generalizing before with
  | nil => rfl
  | cons field rest ih => rw [List.map_cons, List.foldl_cons, addField_move, ih, List.foldl_cons]

theorem lateImport?_move (fields : List Field) :
    lateImport? (fields.map (Field.move f)) = (lateImport? fields).map (Mistake.move f) := by
  match fields with
  | [] | [_] => rfl
  | g :: h :: rest =>
    have ih := lateImport?_move (h :: rest)
    rw [List.map_cons] at ih
    rw [List.map_cons, List.map_cons, lateImport?, lateImport?, ih, Field.content_move,
      Field.content_move, Content.defined?_move]
    cases g.content.defined? <;> cases h.content <;> rfl

@[simp]
theorem TypeTable.addField_move (t : TypeTable) (field : Field) :
    t.addField (field.move f) = t.addField field := by
  simp only [TypeTable.addField, Field.content_move, Content.keys_move]
  cases field.content <;> simp [Content.move]

@[simp]
theorem TypeTable.ofFields_move (fields : List Field) :
    TypeTable.ofFields (fields.map (Field.move f)) = TypeTable.ofFields fields := by
  simp only [TypeTable.ofFields, List.foldl_map, TypeTable.addField_move]
  rw [List.filterMap_map]
  congr 5
  funext g
  cases hc : g.content <;> simp [hc, Content.move]

/-! ## Names -/

namespace Names

theorem addFields_move (names : Names) (before fields : List Field) :
    names.addFields (before.map (Field.move f)) (fields.map (Field.move f)) =
      (names.addFields before fields).mapError (Mistake.move f) := by
  induction fields generalizing names before with
  | nil => rfl
  | cons g rest ih =>
    have happend :
        before.map (Field.move f) ++ [g.move f] = (before ++ [g]).map (Field.move f) := by
      simp
    rw [List.map_cons, addFields, addFields, happend]
    have hrest (names : Names) := ih names (before ++ [g])
    rw [Field.content_move, Content.space?_move, Field.id_move]
    cases g.content.space? with
    | none => exact hrest names
    | some space =>
      cases g.id with
      | none => exact hrest names
      | some id =>
        simp only [Option.map_some, countIn_move, Id.move]
        split
        · rfl
        · exact hrest _

@[simp]
theorem resolve_move (names : Names) (space : Space) (r : Ref) :
    names.resolve space (r.move f) = (names.resolve space r).mapError (Mistake.move f) := by
  cases r with
  | number n => rfl
  | named id =>
    simp only [Ref.move, Id.move, resolve]
    cases names.entries.lookup (space, id.name) <;> rfl

@[simp]
theorem typeOf_move (names : Names) (u : TypeUse) :
    names.typeOf (u.move f) = (names.typeOf u).mapError (Mistake.move f) := by
  obtain ⟨_ | r, place, s⟩ := u
  · simp [typeOf]
  · simp only [typeOf, TypeUse.move, Option.map_some, resolve_move, mapError_bind]
    congr 1
    funext n
    cases s with
    | none => rfl
    | some s =>
      cases names.types.order[n]? with
      | none => rfl
      | some entry =>
        simp only [Option.map_some, Signature.key_move]
        split <;> rfl

end Names

/-! ## Code -/

namespace Scope

variable (f) in
def move (scope : Scope) : Scope :=
  { scope with labels := scope.labels.map (Option.map (Id.move f)) }

@[simp]
theorem move_empty : ({} : Scope).move f = {} := rfl

@[simp]
theorem locals_move (scope : Scope) : (scope.move f).locals = scope.locals := rfl

theorem any_name_move (label : Option Id) (name : String) :
    (label.map (Id.move f)).any (·.name = name) = label.any (·.name = name) := by
  cases label <;> rfl

@[simp]
theorem resolve_move (scope : Scope) (names : Names) (space : Space) (r : Ref) :
    (scope.move f).resolve names space (r.move f) =
      (scope.resolve names space r).mapError (Mistake.move f) := by
  cases r with
  | number n => rfl
  | named id =>
    have hlabels : (scope.move f).labels.findIdx? (fun l => l.any (·.name = id.name)) =
        scope.labels.findIdx? fun l => l.any (·.name = id.name) := by
      rw [move, List.findIdx?_map]
      congr 1
      funext l
      exact any_name_move l id.name
    cases space with
    | local_ =>
      simp only [Ref.move, Id.move, resolve, move]
      cases scope.locals.lookup id.name <;> rfl
    | label =>
      simp only [Ref.move, Id.move, resolve, hlabels]
      cases scope.labels.findIdx? fun l => l.any (·.name = id.name) <;> rfl
    | _ => exact names.resolve_move _ (.named id)

@[simp]
theorem operand_move (scope : Scope) (names : Names) (o : Operand) :
    (scope.move f).operand names (o.move f) =
      (scope.operand names o).mapError (Mistake.move f) := by
  cases o with
  | access align memory offset =>
    simp only [Operand.move, operand, Names.resolve_move, mapError_bind]
    congr 1
    funext m
    split <;> rfl
  | _ => simp [Operand.move, operand]

@[simp]
theorem blockType_move (names : Names) (u : TypeUse) :
    blockType names (u.move f) = (blockType names u).mapError (Mistake.move f) := by
  simp only [blockType, TypeUse.ref_move, Option.isSome_map, TypeUse.isWide_move, TypeUse.key_move]
  split
  · simp
  · split <;> rfl

@[simp]
theorem checkLabel_move (block : Option (Option Id)) (label : Option Id) :
    checkLabel (block.map (Option.map (Id.move f))) (label.map (Id.move f)) =
      (checkLabel block label).mapError (Mistake.move f) := by
  cases label with
  | none => rfl
  | some id =>
    cases block with
    | none => rfl
    | some block =>
      simp only [Option.map_some, checkLabel, Id.move, any_name_move]
      split <;> rfl

@[simp]
theorem head?_labels_move (scope : Scope) :
    (scope.move f).labels.head? = scope.labels.head?.map (Option.map (Id.move f)) :=
  List.head?_map

@[simp]
theorem code_move (scope : Scope) (names : Names) (code : Code) :
    (scope.move f).code names (moveCode f code) =
      (scope.code names code).mapError (Mistake.move f) := by
  induction code generalizing scope with
  | nil => rfl
  | cons i rest ih =>
    cases i with
    | plain opcode operands =>
      have hrest := ih scope
      simp only [moveCode, List.map_cons, Instr.move, Scope.code, List.mapM_map, mapError_bind,
        mapError_mapM, mapError_pure] at hrest ⊢
      simp only [hrest, Function.comp_def, operand_move]
    | enter opcode label u =>
      have hrest := ih { scope with labels := label :: scope.labels }
      simp only [moveCode, List.map_cons, Instr.move, Scope.code, blockType_move, mapError_bind,
        mapError_pure] at hrest ⊢
      simp only [← hrest]
      rfl
    | otherwise label =>
      have hrest := ih scope
      simp only [moveCode, List.map_cons, Instr.move, Scope.code, head?_labels_move,
        checkLabel_move, mapError_bind, mapError_pure] at hrest ⊢
      simp only [hrest]
    | leave label =>
      have hrest := ih { scope with labels := scope.labels.tail }
      simp only [moveCode, List.map_cons, Instr.move, Scope.code, head?_labels_move,
        checkLabel_move, mapError_bind, mapError_pure] at hrest ⊢
      simp only [← hrest, move, List.map_tail]

@[simp]
theorem addLocals_move (scope : Scope) (first : Nat) (ids : List (Option Id)) :
    (scope.move f).addLocals first (ids.map (Option.map (Id.move f))) =
      ((scope.addLocals first ids).map (move f)).mapError (Mistake.move f) := by
  induction ids generalizing scope first with
  | nil => rfl
  | cons id rest ih =>
    cases id with
    | none => exact ih scope (first + 1)
    | some id =>
      have hrest := ih { scope with locals := (id.name, first) :: scope.locals } (first + 1)
      by_cases hknown : (scope.locals.lookup id.name).isSome
      · simp [addLocals, hknown, Id.move, Mistake.move, Except.map]
      · simpa [addLocals, hknown, Id.move, move] using hrest

end Scope

@[simp]
theorem plainCode_move (names : Names) (code : Code) :
    plainCode names (moveCode f code) = (plainCode names code).mapError (Mistake.move f) := by
  have hcode := Scope.code_move (f := f) {} names code
  rw [Scope.move_empty] at hcode
  rw [plainCode, plainCode, hcode, mapError_bind]
  rfl

theorem localIds_move (names : Names) (u : TypeUse) (type : Nat)
    (locals : List (Option Id × UInt8)) :
    localIds names (u.move f) type (moveNamed f locals) =
      (localIds names u type locals).map (Option.map (Id.move f)) := by
  obtain ⟨r, place, _ | s⟩ := u
  · simp [localIds, TypeUse.move, map_fst_moveNamed]
  · simp only [localIds, TypeUse.move, Option.map_some, Signature.move, map_fst_moveNamed,
      List.map_append]

/-! ## Sections -/

@[simp]
theorem wantedBytes_move (names : Names) (w : Wanted) :
    wantedBytes names (w.move f) = (wantedBytes names w).mapError (Mistake.move f) := by
  cases w <;> simp [Wanted.move, wantedBytes]

@[simp]
theorem functionBytes_move (names : Names) (u : TypeUse) (type : Nat)
    (locals : List (Option Id × UInt8)) (code : Code) :
    functionBytes names (u.move f) type (moveNamed f locals) (moveCode f code) =
      (functionBytes names u type locals code).mapError (Mistake.move f) := by
  have hlocals := Scope.addLocals_move (f := f) {} 0 (localIds names u type locals)
  rw [Scope.move_empty] at hlocals
  simp only [functionBytes, localIds_move, hlocals, map_snd_moveNamed, mapError_bind]
  cases ({} : Scope).addLocals 0 (localIds names u type locals) with
  | error m => rfl
  | ok scope =>
    show (scope.move f).code names (moveCode f code) >>= _ = _
    rw [Scope.code_move]
    rfl

/-- How a segment of elements begins: the lowest bits of its kind, where it is copied to, and
whether that is the first table. -/
def modeBytes (names : Names) : Mode → Placing (UInt8 × List UInt8 × Bool)
  | .active target offset => do
    let n ← names.resolve .table target
    let offset ← plainCode names offset
    if n = 0 then return (0, offset, true) else return (2, Writer.unsigned n ++ offset, false)
  | .passive => return (1, [], false)
  | .declared => return (3, [], false)

/-- A segment of elements that begins so. -/
def itemsBytes (names : Names) (items : Items) (low : UInt8) (place : List UInt8)
    (isZero : Bool) : Placing (List UInt8) :=
  match items with
  | .refs rs => do
    let indices ← rs.mapM fun r => return Writer.unsigned (← names.resolve .function r)
    return low :: place ++ (if isZero then [] else [0x00]) ++ Writer.vector indices
  | .expressions type codes => do
    let codes ← codes.mapM (plainCode names)
    if isZero ∧ type ≠ 0x70 then return 6 :: 0 :: place ++ type :: Writer.vector codes
    else return (low + 4) :: place ++ (if isZero then [] else [type]) ++ Writer.vector codes

theorem elementsBytes_eq (names : Names) (mode : Mode) (items : Items) :
    elementsBytes names mode items =
      modeBytes names mode >>= fun (low, place, isZero) =>
        itemsBytes names items low place isZero := by
  cases mode with
  | active target offset =>
    simp only [elementsBytes, modeBytes, bind_assoc]
    congr 1
    funext n
    congr 1
    funext offset
    split <;> rfl
  | passive | declared => rfl

theorem modeBytes_move (names : Names) (mode : Mode) :
    modeBytes names (mode.move f) = (modeBytes names mode).mapError (Mistake.move f) := by
  cases mode with
  | active target offset =>
    simp only [Mode.move, modeBytes, Names.resolve_move, plainCode_move, mapError_bind]
    congr 1
    funext n
    congr 1
    funext offset
    split <;> rfl
  | passive | declared => rfl

theorem itemsBytes_move (names : Names) (items : Items) (low : UInt8) (place : List UInt8)
    (isZero : Bool) :
    itemsBytes names (items.move f) low place isZero =
      (itemsBytes names items low place isZero).mapError (Mistake.move f) := by
  cases items with
  | refs rs => simp [Items.move, itemsBytes, List.mapM_map, Function.comp_def]
  | expressions type codes =>
    simp only [Items.move, itemsBytes, List.mapM_map, Function.comp_def, plainCode_move,
      mapError_bind, mapError_mapM]
    congr 1
    funext codes
    split <;> rfl

@[simp]
theorem elementsBytes_move (names : Names) (mode : Mode) (items : Items) :
    elementsBytes names (mode.move f) (items.move f) =
      (elementsBytes names mode items).mapError (Mistake.move f) := by
  simp only [elementsBytes_eq, modeBytes_move, itemsBytes_move, mapError_bind]

@[simp]
theorem dataBytes_move (names : Names) (mode : Mode) (bytes : List UInt8) :
    dataBytes names (mode.move f) bytes =
      (dataBytes names mode bytes).mapError (Mistake.move f) := by
  cases mode with
  | active target offset =>
    simp only [Mode.move, dataBytes, Names.resolve_move, plainCode_move, mapError_bind]
    congr 1
    funext n
    congr 1
    funext offset
    split <;> rfl
  | passive | declared => rfl

@[simp]
theorem addContent_move (names : Names) (s : Sections) (field : Field) :
    addContent names s (field.move f) =
      (addContent names s field).mapError (Mistake.move f) := by
  rw [addContent, addContent, Field.content_move]
  cases field.content <;> simp [Content.move]

@[simp]
theorem usesData_move (fields : List Field) :
    usesData (fields.map (Field.move f)) = usesData fields := by
  rw [usesData, usesData, List.any_map]
  congr 1
  funext field
  cases hc : field.content with
  | func u locals code =>
    simp only [Function.comp_apply, Field.content_move, hc, Content.move, moveCode, List.any_map]
    congr 1
    funext i
    cases i <;> rfl
  | _ => simp [hc, Content.move]

/-! ## The section of names -/

@[simp]
theorem namesIn_move (space : Space) (types : TypeTable) (fields : List Field) :
    namesIn space types (fields.map (Field.move f)) = namesIn space types fields := by
  rw [namesIn, namesIn, filter_space_move, List.zipIdx_map, List.filterMap_map]
  congr 1
  funext (g, n)
  cases hid : g.id <;> simp [hid, Id.move]

@[simp]
theorem namedItems_move (ids : List (Option Id)) :
    namedItems (ids.map (Option.map (Id.move f))) = namedItems ids := by
  rw [namedItems, namedItems, List.zipIdx_map, List.filterMap_map]
  congr 1
  funext (id, n)
  cases id <;> rfl

theorem params_move (u : TypeUse) :
    ((u.move f).signature.map fun s => s.params.map (·.1)).getD [] =
      ((u.signature.map fun s => s.params.map (·.1)).getD []).map (Option.map (Id.move f)) := by
  obtain ⟨r, place, _ | s⟩ := u
  · rfl
  · exact map_fst_moveNamed s.params

@[simp]
theorem localNamesOf_move (fields : List Field) :
    localNamesOf (fields.map (Field.move f)) = localNamesOf fields := by
  rw [localNamesOf, localNamesOf, filter_space_move, List.zipIdx_map, List.filterMap_map]
  congr 1
  funext (g, n)
  cases hc : g.content with
  | func u locals code =>
    simp only [Function.comp_apply, Prod.map_apply, Field.content_move, hc, Content.move,
      params_move, map_fst_moveNamed, ← List.map_append, namedItems_move, id_eq]
  | _ => simp [hc, Content.move]

theorem filterMap_moveCode {k : Instr → Option (Option Id)}
    (hk : ∀ i, k (i.move f) = (k i).map (Option.map (Id.move f))) (code : Code) :
    (moveCode f code).filterMap k = (code.filterMap k).map (Option.map (Id.move f)) := by
  rw [moveCode, List.filterMap_map, List.map_filterMap]
  congr 1
  funext i
  exact hk i

@[simp]
theorem labelNamesOf_move (fields : List Field) :
    labelNamesOf (fields.map (Field.move f)) = labelNamesOf fields := by
  rw [labelNamesOf, labelNamesOf, filter_space_move, List.zipIdx_map, List.filterMap_map]
  congr 1
  funext (g, n)
  cases hc : g.content with
  | func u locals code =>
    simp only [Function.comp_apply, Prod.map_apply, Field.content_move, hc, Content.move, id_eq]
    rw [filterMap_moveCode fun i => by cases i <;> rfl, namedItems_move]
  | _ => simp [hc, Content.move]

theorem nameSection_move (id : Option Id) (types : TypeTable) (fields : List Field) :
    nameSection (id.map (Id.move f)) types (fields.map (Field.move f)) =
      nameSection id types fields := by
  cases id <;> simp [nameSection, Id.move]

/-- **The binary of moved fields.** -/
theorem encodeFields_move (id : Option Id) (fields : List Field) :
    encodeFields (id.map (Id.move f)) (fields.map (Field.move f)) =
      (encodeFields id fields).mapError (Mistake.move f) := by
  have hfields := foldl_addField_move (f := f) [] fields
  rw [List.map_nil] at hfields
  simp only [encodeFields, hfields, lateImport?_move]
  cases lateImport? (fields.foldl addField []) with
  | some m => rfl
  | none =>
    have hnames (names : Names) := names.addFields_move (f := f) [] (fields.foldl addField [])
    simp only [List.map_nil] at hnames
    simp [hnames, nameSection_move, List.foldlM_map]

/-! ## The whole text -/

/-- The binary of both texts, or the mistake in both; a second start field only shows behind the
module, where they end. -/
inductive MovedBinary (f : Nat → Nat) (e e' : Nat) :
    Except Mistake (List UInt8) → Except Mistake (List UInt8) → Prop
  | ok (bytes : List UInt8) : MovedBinary f e e' (.ok bytes) (.ok bytes)
  | error (m : Mistake) : MovedBinary f e e' (.error m) (.error (m.move f))
  | starts : MovedBinary f e e' (.error ⟨.manyStarts, e⟩) (.error ⟨.manyStarts, e'⟩)

theorem MovedBinary.of_ok {e e' : Nat} {bytes : List UInt8} {found : Except Mistake (List UInt8)}
    (h : MovedBinary f e e' (.ok bytes) found) : found = .ok bytes := by
  cases h
  rfl

theorem MovedBinary.of_error {e e' : Nat} {m : Mistake} {found : Except Mistake (List UInt8)}
    (h : MovedBinary f e e' (.error m) found) :
    found = .error (m.move f) ∨ m = ⟨.manyStarts, e⟩ ∧ found = .error ⟨.manyStarts, e'⟩ := by
  cases h with
  | error _ => exact .inl rfl
  | starts => exact .inr ⟨rfl, rfl⟩

/-- **The binary of a moved module.** -/
theorem encode_moved {source text : String} {e e' p w : Nat} {ts us : List Placed}
    (hs : tokens source = ⟨.opening, p⟩ :: ⟨.word "module".toList, w⟩ :: ts)
    (ht : tokens text = ⟨.opening, f p⟩ :: ⟨.word "module".toList, f w⟩ :: us)
    (h : Inside f e e' 1 ts us) : MovedBinary f e e' (encode source) (encode text) := by
  have hread := Parser.source_moved (p := p) (w := w) h
  simp only [encode, parse, hs, ht, StateT.run]
  generalize Parser.source _ = x at hread
  generalize Parser.source _ = y at hread
  cases hread with
  | error m => exact .error m
  | starts => exact .starts
  | ok s =>
    cases s with
    | binary bytes => exact .ok bytes
    | fields id fields =>
      have hencode := encodeFields_move (f := f) id fields
      show MovedBinary f e e' (encodeFields id fields)
        (encodeFields (id.map (Id.move f)) (fields.map (Field.move f)))
      rw [hencode]
      cases encodeFields id fields with
      | ok bytes => exact .ok bytes
      | error m => exact .error m

end ScriptHost.Wasm.Text
