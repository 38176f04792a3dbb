import ScriptHost.Files
import ScriptHost.Path
import ScriptHost.Rhai.Library

/-!
# Running scripts

The meaning of the syntax. A value that is reached through a chain of links is changed where it
stands: each link answers with what its target has become. Functions see their parameters and
nothing else; modules are run once and kept by their path.
-/

namespace ScriptHost.Rhai

/-- A module: where it is from, its functions, what it offers, and its own modules. -/
structure Module where
  source : String
  functions : List Function
  offered : List (String × Value)
  modules : List (String × Module)

instance : Inhabited Module := ⟨⟨"", [], [], []⟩⟩

structure Variable where
  name : String
  value : Value
  isConstant : Bool := false
  deriving Inhabited

/-- What a script runs in: the variables in sight, the latest first, the functions and modules
it knows, the module it stands in, the value that a method is called on, how many calls it is
deep, the texts it has written, the latest first, what it offers, and the modules that have
been run. -/
structure State where
  files : Files
  visible : List Variable := []
  functions : List Function := []
  modules : List (String × Module) := []
  source : Option String := none
  this : Option Value := none
  depth : Nat := 0
  written : List String := []
  offered : List (String × Value) := []
  loaded : List (String × Module) := []

/-- Why the rest of a script is not run. -/
inductive Stop where
  | failed (f : Failure)
  | returned (v : Value)
  | broken (v : Value)
  | continued
  | exited (v : Value)

abbrev Run := EStateM Stop State

namespace Run

def fail {α : Type} (p : Problem) (place : Position) : Run α :=
  throw (.failed (.plain p (some place)))

/-- What an operation gives, its problem placed. -/
def ofResult {α : Type} (place : Position) : Except Problem α → Run α
  | .ok a => pure a
  | .error p => fail p place

/-- Runs something; what it brings into sight is out of sight afterwards, however it ends. -/
def inBlock {α : Type} (inner : Run α) : Run α := fun s =>
  let cut (after : State) : State := { after with
    visible := after.visible.drop (after.visible.length - s.visible.length)
    modules := after.modules.drop (after.modules.length - s.modules.length) }
  match inner s with
  | .ok a after => .ok a (cut after)
  | .error e after => .error e (cut after)

/-- Runs something in other surroundings; the old ones are back afterwards, however it ends. -/
def elsewhere {α : Type} (enter : State → State) (inner : Run α) : Run α := fun s =>
  let back (after : State) : State := { after with
    visible := s.visible, functions := s.functions, modules := s.modules, source := s.source
    this := s.this, depth := s.depth, offered := s.offered }
  match inner (enter s) with
  | .ok a after => .ok a (back after)
  | .error e after => .error e (back after)

/-- Brings a variable into sight. -/
def bring (name : String) (value : Value) (isConstant : Bool) : Run Unit :=
  modify fun s => { s with visible := ⟨name, value, isConstant⟩ :: s.visible }

/-- Writes a line. -/
def write (line : String) : Run Unit :=
  modify fun s => { s with written := (line ++ "\n") :: s.written }

end Run

/-- Sets the first variable of a name. -/
def setVariable (name : String) (value : Value) : List Variable → List Variable
  | [] => []
  | v :: rest =>
    if v.name = name then { v with value } :: rest else v :: setVariable name value rest

def State.lookup? (s : State) (name : String) : Option Variable :=
  s.visible.find? fun v => v.name = name

/-- The function of a name with so many parameters. -/
def function? (fs : List Function) (name : String) (n : Nat) : Option Function :=
  fs.find? fun f => f.name = name && f.parameters.length = n

/-- How deep calls can be. -/
def depthLimit : Nat := 64

/-- How many steps a run may take one inside the other. -/
def stepLimit : Nat := 4000000000

/-! ## Parts of values -/

/-- The part of a value at an index. -/
def partAt (target index : Value) (mark place : Position) : Run Value :=
  match target, index with
  | .array items, .int i =>
    match (place? items.length i.toInt).bind fun n => items[n]? with
    | some v => pure v
    | none => .fail (.itemBounds items.length i.toInt) place
  | .array _, v => .fail (.dataType "i64" v.typeName) place
  | .map fields, .text s => pure ((fields.lookup s).getD .unit)
  | .map _, v => .fail (.dataType "string" v.typeName) place
  | .text s, .int i =>
    match (place? s.length i.toInt).bind fun n => s.toList[n]? with
    | some c => pure (.char c)
    | none => .fail (.charBounds s.length i.toInt) place
  | .text s, .range a b c =>
    pure (.text (Texts.slice s (rangeWindow a b c).1 (rangeWindow a b c).2))
  | .text _, v => .fail (.dataType "i64" v.typeName) place
  | .int n, .int i =>
    match place? 64 i.toInt with
    | some k => pure (.bool (n.toUInt64.toNat / Nat.pow 2 k % 2 = 1))
    | none => .fail (.bitBounds i.toInt) place
  | v, i => .fail (.noIndexer v.typeName i.typeName) mark

/-- A value with another part at an index. -/
def withPartAt (target index part : Value) (mark place : Position) : Run Value :=
  match target, index with
  | .array items, .int i =>
    match place? items.length i.toInt with
    | some n => pure (.array (items.set n part))
    | none => .fail (.itemBounds items.length i.toInt) place
  | .map fields, .text s => pure (.map (Json.insertField s part fields))
  | .text s, .int i =>
    match part, place? s.length i.toInt with
    | .char c, some n => pure (.text (String.ofList (s.toList.set n c)))
    | v, some _ => .fail (.dataType "char" v.typeName) place
    | _, none => .fail (.charBounds s.length i.toInt) place
  | .int n, .int i =>
    match part, place? 64 i.toInt with
    | .bool b, some k =>
      let bit : UInt64 := 1 <<< k.toUInt64
      pure (.int (.ofUInt64 (if b then n.toUInt64 ||| bit else n.toUInt64 &&& ~~~bit)))
    | v, some _ => .fail (.dataType "bool" v.typeName) place
    | _, none => .fail (.bitBounds i.toInt) place
  | v, i => .fail (.noIndexer v.typeName i.typeName) mark

/-- The property of a value. -/
def propertyOf (target : Value) (name : String) (place : Position) : Run Value :=
  match target with
  | .map fields => pure ((fields.lookup name).getD .unit)
  | v =>
    match Library.property? v name with
    | some r => do return (← Run.ofResult place r).value
    | none => .fail (.noGetter name v.typeName) place

/-- A value with another property. -/
def withProperty (target : Value) (name : String) (part : Value) (place : Position) : Run Value :=
  match target with
  | .map fields => pure (.map (Json.insertField name part fields))
  | v => .fail (.noSetter name v.typeName) place

/-- What a loop goes through: values, or so many integers from one on. -/
inductive Source where
  | values (items : List Value)
  | integers (first : Int64) (count : Nat)

namespace Source

def ofValue? : Value → Option Source
  | .array items => some (.values items)
  | .text s => some (.values (s.toList.map .char))
  | .range first last closed =>
    some (.integers first (rangeWindow first last closed).2.toNat)
  | _ => none

/-- The next value, and what is left. -/
def next? : Source → Option (Value × Source)
  | .values (v :: rest) => some (v, .values rest)
  | .integers first (n + 1) => some (.int first, .integers (first + 1) n)
  | .values [] | .integers _ 0 => none

end Source

/-- The module of a path of names. -/
def findModule (modules : List (String × Module)) : List String → Option Module
  | [] => none
  | [s] => modules.lookup s
  | s :: rest =>
    match modules.lookup s with
    | some m => findModule m.modules rest
    | none => none

/-- The value of a name. -/
def nameValue (modules : List String) (s : String) (start p : Position) : Run Value := do
  let st ← get
  match modules with
  | [] =>
    if s = "this" then
      match st.this with
      | some v => return v
      | none => .fail .unboundThis p
    else
      match st.lookup? s with
      | some v => return v.value
      | none => .fail (.variableNotFound s) p
  | _ =>
    let full := "::".intercalate (modules ++ [s])
    match findModule st.modules modules with
    | some m =>
      match m.offered.lookup s with
      | some v => return v
      | none => .fail (.variableNotFound full) start
    | none => .fail (.moduleNotFound ("::".intercalate modules)) start

/-- A link with its index or arguments found. -/
inductive Reached where
  | index (i : Value) (mark place : Position) (optional : Bool)
  | property (name : String) (place : Position) (optional : Bool)
  | method (name : String) (args : List Value) (place : Position) (optional : Bool)

def Reached.isOptional : Reached → Bool
  | .index _ _ _ optional | .property _ _ optional | .method _ _ _ optional => optional

/-- What is done at the end of a chain: nothing but to read it, or an assignment. -/
inductive Goal where
  | read
  | assign (operator : Option String) (value : Value) (place : Position)

/-- What a chain starts from: the name of its variable, if it is one, and whether that is
constant. -/
structure Root where
  name : String := ""
  place : Position
  isConstant : Bool := false

/-- What an assignment puts in place of a value. -/
def replaced (old : Value) : Goal → Run Value
  | .read => pure old
  | .assign none value _ => pure value
  | .assign (some op) value place => Run.ofResult place (Operation.assigning op old value)

/-- Fails where a part of a constant would be assigned to. -/
def Root.checkWritable (r : Root) : Run Unit :=
  if r.isConstant then .fail (.constantModified r.name) r.place else pure ()

mutual

/-- The value of an expression. -/
def expr : Nat → Expr → Run Value
  | 0, e => .fail .outOfSteps e.place
  | n + 1, e =>
    match e with
    | .constant v _ => pure v
    | .template parts _ => do
      let vs ← exprs n parts
      return .text (String.join (vs.map Value.plainText))
    | .array items _ => do return .array (← exprs n items)
    | .map fields _ => do
      let vs ← exprs n (fields.map (·.2))
      return .map (Json.sortFields ((fields.map (·.1)).zip vs))
    | .name modules s start p => nameValue modules s start p
    | .call modules f args start p => callExpr n modules f args start p
    | .operate op args p => do
      let vs ← exprs n args
      Run.ofResult p (Operation.run op vs)
    | .both a b _ => do
      if ← truth n a then return .bool (← truth n b) else return .bool false
    | .either a b _ => do
      if ← truth n a then return .bool true else return .bool (← truth n b)
    | .orElse a b _ => do
      match ← expr n a with
      | .unit => expr n b
      | v => return v
    | .chain root links => chainExpr n root links .read
    | .statement s _ => statement n s
    | .closure f held _ => do
      let vs ← held.mapM fun (s, p) => nameValue [] s p p
      return .function f vs
termination_by structural fuel => fuel

/-- The values of expressions in order. -/
def exprs : Nat → List Expr → Run (List Value)
  | 0, _ => .fail .outOfSteps {}
  | _, [] => pure []
  | n + 1, e :: rest => do
    let v ← expr n e
    return v :: (← exprs n rest)
termination_by structural fuel => fuel

/-- The value of a condition. -/
def truth : Nat → Expr → Run Bool
  | 0, e => .fail .outOfSteps e.place
  | n + 1, e => do
    match ← expr n e with
    | .bool b => return b
    | v => .fail (.dataType "bool" v.typeName) e.place
termination_by structural fuel => fuel

/-- A call. The first argument is changed where it stands if it is a variable. -/
def callExpr : Nat → List String → String → List Expr → Position → Position → Run Value
  | 0, _, _, _, _, p => .fail .outOfSteps p
  | n + 1, [], f, args, _, p => do
    let vs ← exprs n args
    let root ← match args.head? with
      | some (.name [] s _ q) => do
        match (← get).lookup? s with
        | some v => pure (some (Root.mk s q v.isConstant))
        | none => pure none
      | _ => pure none
    let (v, changed) ← callNamed n f vs ((root.map Root.isConstant).getD false) p
    match root, changed with
    | some r, some w => modify fun s => { s with visible := setVariable r.name w s.visible }
    | _, _ => pure ()
    return v
  | n + 1, modules, f, args, start, p => do
    let vs ← exprs n args
    let path := "::".intercalate modules
    match findModule (← get).modules modules with
    | none => .fail (.moduleNotFound path) start
    | some m =>
      match function? (m.functions.filter fun g => !g.isPrivate) f vs.length with
      | none => .fail (.functionNotFound (signature (path ++ "::" ++ f) vs)) p
      | some g =>
        let enter (s : State) : State := { s with
          functions := m.functions, modules := m.modules, source := some m.source }
        Run.elsewhere enter (callFunction n g vs m.source none p) |>.map (·.1)
termination_by structural fuel => fuel

/-- Calls a function by name; its value and what has become of the first argument. -/
def callNamed : Nat → String → List Value → Bool → Position → Run (Value × Option Value)
  | 0, _, _, _, p => .fail .outOfSteps p
  | n + 1, f, vs, isConstant, p => do
    let st ← get
    match function? st.functions f vs.length with
    | some g =>
      let (v, _) ← callFunction n g vs (st.source.getD "") none p
      return (v, none)
    | none =>
      match f, vs with
      | "print", [v] => Run.write v.plainText; return (.unit, none)
      | "print", [] => Run.write ""; return (.unit, none)
      | "debug", [v] =>
        Run.write ("[" ++ st.source.getD "script" ++ " " ++ p.text ++ "] " ++ v.innerText)
        return (.unit, none)
      | "exit", [] => throw (.exited .unit)
      | "exit", [v] => throw (.exited v)
      | "call", .function g bound :: more =>
        let (v, _) ← callNamed n g (bound ++ more) false p
        return (v, none)
      | "is_def_var", [.text s] => return (.bool (st.lookup? s).isSome, none)
      | "is_def_fn", [.text s, .int k] =>
        return (.bool (function? st.functions s k.toInt.toNat).isSome, none)
      | f, vs =>
        match ← higher n f vs p with
        | some r => return r
        | none =>
          match Library.find? f vs with
          | some r =>
            if isConstant ∧ Library.changing.contains f then .fail (.constantChanged f) p
            let r ← Run.ofResult p r
            return (r.value, r.changed)
          | none => .fail (.functionNotFound (signature f vs)) p
termination_by structural fuel => fuel

/-- Calls a function of a script on values; its value and what `this` has become. -/
def callFunction :
    Nat → Function → List Value → String → Option Value → Position → Run (Value × Option Value)
  | 0, _, _, _, _, p => .fail .outOfSteps p
  | n + 1, g, vs, source, this, p => do
    let depth := (← get).depth + 1
    if depthLimit < depth then .fail .stackOverflow p
    let enter (s : State) : State := { s with
      visible := ((g.parameters.zip vs).map fun (name, value) => ⟨name, value, false⟩).reverse
      this, depth }
    let run : Run (Value × Option Value) := fun s =>
      match statements n g.body s with
      | .ok v after => .ok (v, after.this) after
      | .error (.returned v) after => .ok (v, after.this) after
      | .error (.failed f) after =>
        let f := if f.problem.isCatchable then .inCall g.name source f p else f.movedTo p
        .error (.failed f) after
      | .error e after => .error e after
    Run.elsewhere enter run
termination_by structural fuel => fuel

/-- Functions that call other functions on the items of an array. -/
def higher : Nat → String → List Value → Position → Run (Option (Value × Option Value))
  | 0, _, _, p => .fail .outOfSteps p
  | n + 1, f, vs, p => do
    match f, vs with
    | "map", [.array items, .function g bound] =>
      return some (.array (← eachItem n g bound items p), none)
    | "filter", [.array items, .function g bound] =>
      let flags ← eachItem n g bound items p
      return some (.array ((items.zip flags).filterMap fun (v, b) =>
        if Operation.equal b (.bool true) then some v else none), none)
    | "for_each", [.array items, .function g bound] =>
      discard (eachItem n g bound items p)
      return some (.unit, none)
    | "some", [.array items, .function g bound] =>
      let flags ← eachItem n g bound items p
      return some (.bool (flags.any (Operation.equal (.bool true))), none)
    | "all", [.array items, .function g bound] =>
      let flags ← eachItem n g bound items p
      return some (.bool (flags.all (Operation.equal (.bool true))), none)
    | "find", [.array items, .function g bound] =>
      let flags ← eachItem n g bound items p
      return some (((items.zip flags).find? fun (_, b) =>
        Operation.equal b (.bool true)).elim .unit (·.1), none)
    | "index_of", [.array items, .function g bound] =>
      let flags ← eachItem n g bound items p
      return some (.int ((flags.findIdx? (Operation.equal (.bool true))).elim (-1) .ofNat), none)
    | "reduce", [.array items, .function g bound] =>
      return some (← folded n g bound items .unit p, none)
    | "reduce", [.array items, .function g bound, first] =>
      return some (← folded n g bound items first p, none)
    | "retain", [.array items, .function g bound] =>
      let flags ← eachItem n g bound items p
      let (kept, gone) := (items.zip flags).partition fun (_, b) =>
        Operation.equal b (.bool true)
      return some (.array (gone.map (·.1)), some (.array (kept.map (·.1))))
    | "drain", [.array items, .function g bound] =>
      let flags ← eachItem n g bound items p
      let (gone, kept) := (items.zip flags).partition fun (_, b) =>
        Operation.equal b (.bool true)
      return some (.array (gone.map (·.1)), some (.array (kept.map (·.1))))
    | "sort", [.array items, .function g bound] =>
      return some (.unit, some (.array (← sorted n g bound items p)))
    | _, _ => return none
termination_by structural fuel => fuel

/-- What a function gives for each of some values. -/
def eachItem : Nat → String → List Value → List Value → Position → Run (List Value)
  | 0, _, _, _, p => .fail .outOfSteps p
  | _, _, _, [], _ => pure []
  | n + 1, g, bound, v :: rest, p => do
    let (w, _) ← callNamed n g (bound ++ [v]) false p
    return w :: (← eachItem n g bound rest p)
termination_by structural fuel => fuel

/-- What a function makes of values one after the other. -/
def folded : Nat → String → List Value → List Value → Value → Position → Run Value
  | 0, _, _, _, _, p => .fail .outOfSteps p
  | _, _, _, [], acc, _ => pure acc
  | n + 1, g, bound, v :: rest, acc, p => do
    let (w, _) ← callNamed n g (bound ++ [acc, v]) false p
    folded n g bound rest w p
termination_by structural fuel => fuel

/-- The values in the order that a function gives. -/
def sorted : Nat → String → List Value → List Value → Position → Run (List Value)
  | 0, _, _, _, p => .fail .outOfSteps p
  | _, _, _, [], _ => pure []
  | n + 1, g, bound, v :: rest, p => do
    placed n g bound v (← sorted n g bound rest p) p
termination_by structural fuel => fuel

/-- Puts a value in front of the first that does not come before it. -/
def placed : Nat → String → List Value → Value → List Value → Position → Run (List Value)
  | 0, _, _, _, _, p => .fail .outOfSteps p
  | _, _, _, v, [], _ => pure [v]
  | n + 1, g, bound, v, w :: rest, p => do
    let (order, _) ← callNamed n g (bound ++ [v, w]) false p
    let after : Bool := match order with
      | .int k => 0 < k
      | _ => false
    if after then return w :: (← placed n g bound v rest p)
    else return v :: w :: rest
termination_by structural fuel => fuel

/-- The links with what is in them. -/
def reached : Nat → List Link → Run (List Reached)
  | 0, _ => .fail .outOfSteps {}
  | _, [] => pure []
  | n + 1, l :: rest => do
    let r ← match l with
      | .index i mark optional => do pure (Reached.index (← expr n i) mark i.place optional)
      | .property s _ p optional => pure (.property s p optional)
      | .method s args _ p optional => do pure (.method s (← exprs n args) p optional)
    return r :: (← reached n rest)
termination_by structural fuel => fuel

/-- A chain, and what is done at its end. -/
def chainExpr : Nat → Expr → List Link → Goal → Run Value
  | 0, e, _, _ => .fail .outOfSteps e.place
  | n + 1, e, ls, goal => do
    let links ← reached n ls
    match e with
    | .name [] s _ q =>
      if s = "this" then
        match (← get).this with
        | none => .fail .unboundThis q
        | some v =>
          let (r, changed) ← follow n ⟨s, q, false⟩ v links goal
          match changed with
          | some w => modify fun st => { st with this := some w }
          | none => pure ()
          return r
      else
        match (← get).lookup? s with
        | none => .fail (.variableNotFound s) q
        | some v =>
          let (r, changed) ← follow n ⟨s, q, v.isConstant⟩ v.value links goal
          match changed with
          | some w => modify fun st => { st with visible := setVariable s w st.visible }
          | none => pure ()
          return r
    | e =>
      let v ← expr n e
      return (← follow n { place := e.place } v links goal).1
termination_by structural fuel => fuel

/-- Follows links from a value; what is at their end, and what has become of the value. -/
def follow : Nat → Root → Value → List Reached → Goal → Run (Value × Option Value)
  | 0, root, _, _, _ => .fail .outOfSteps root.place
  | _, _, v, [], _ => pure (v, none)
  | n + 1, root, v, l :: rest, goal => do
    if l.isOptional then
      match v with
      | .unit => return (.unit, none)
      | _ => pure ()
    match l with
    | .index i mark p _ =>
      match rest, goal with
      | [], .read => return (← partAt v i mark p, none)
      | [], goal =>
        let isNew := match v, i with
          | .map fields, .text s => (fields.lookup s).isNone
          | _, _ => false
        let old ← partAt v i mark p
        if !isNew then root.checkWritable
        return (.unit, some (← withPartAt v i (← replaced old goal) mark p))
      | rest, goal =>
        let inner ← partAt v i mark p
        let (r, changed) ← follow n root inner rest goal
        match changed with
        | some w => return (r, some (← withPartAt v i w mark p))
        | none => return (r, none)
    | .property s p _ =>
      match rest, goal with
      | [], .read => return (← propertyOf v s p, none)
      | [], goal =>
        match v with
        | .map fields =>
          if (fields.lookup s).isSome then root.checkWritable
          let w ← replaced ((fields.lookup s).getD .unit) goal
          return (.unit, some (.map (Json.insertField s w fields)))
        | v => return (.unit, some (← withProperty v s .unit p))
      | rest, goal =>
        let inner ← propertyOf v s p
        let (r, changed) ← follow n root inner rest goal
        match changed with
        | some w => return (r, some (← withProperty v s w p))
        | none => return (r, none)
    | .method f args p _ =>
      let (r, changed) ← callMethod n f v args root.isConstant p
      match rest with
      | [] => return (r, changed)
      | rest =>
        let (q, _) ← follow n { place := p } r rest goal
        return (q, changed)
termination_by structural fuel => fuel

/-- Calls a function on a value; its value and what has become of the value. -/
def callMethod :
    Nat → String → Value → List Value → Bool → Position → Run (Value × Option Value)
  | 0, _, _, _, _, p => .fail .outOfSteps p
  | n + 1, f, v, args, isConstant, p => do
    let st ← get
    match v, f with
    | .function g bound, "call" =>
      let (r, _) ← callNamed n g (bound ++ args) false p
      return (r, none)
    | v, f =>
      match function? st.functions f args.length with
      | some g => callFunction n g args (st.source.getD "") (some v) p
      | none =>
        let held := match v with
          | .map fields =>
            match fields.lookup f with
            | some (.function g bound) => some (g, bound)
            | _ => none
          | _ => none
        match held with
        | some (g, bound) =>
          match function? st.functions g (bound.length + args.length) with
          | some h => callFunction n h (bound ++ args) (st.source.getD "") (some v) p
          | none => callNamed n g (bound ++ args) false p
        | none => callNamed n f (v :: args) isConstant p
termination_by structural fuel => fuel

/-- The value of the last of some statements. -/
def statements : Nat → List Stmt → Run Value
  | 0, _ => .fail .outOfSteps {}
  | _, [] => pure .unit
  | n + 1, [s] => statement n s
  | n + 1, s :: rest => do
    discard (statement n s)
    statements n rest
termination_by structural fuel => fuel

/-- Runs the body of a loop once; the value of the loop if it ends there. -/
def round : Nat → List Stmt → Run (Option Value)
  | 0, _ => .fail .outOfSteps {}
  | n + 1, ss => fun s =>
    match Run.inBlock (statements n ss) s with
    | .ok _ after => .ok none after
    | .error .continued after => .ok none after
    | .error (.broken v) after => .ok (some v) after
    | .error e after => .error e after
termination_by structural fuel => fuel

/-- A loop that goes on as long as a condition holds. -/
def whileLoop : Nat → Option Expr → List Stmt → Run Value
  | 0, _, _ => .fail .outOfSteps {}
  | n + 1, c, ss => do
    let goes ← match c with
      | some c => truth n c
      | none => pure true
    if goes then
      match ← round n ss with
      | some v => return v
      | none => whileLoop n c ss
    else return .unit
termination_by structural fuel => fuel

/-- A loop that asks for its condition at the end. -/
def repeatLoop : Nat → List Stmt → Expr → Bool → Run Value
  | 0, _, c, _ => .fail .outOfSteps c.place
  | n + 1, ss, c, until_ => do
    match ← round n ss with
    | some v => return v
    | none =>
      let b ← truth n c
      if b = until_ then return .unit else repeatLoop n ss c until_
termination_by structural fuel => fuel

/-- A loop through the values of a source. -/
def forLoop : Nat → String → Option String → Source → Nat → List Stmt → Run Value
  | 0, _, _, _, _, _ => .fail .outOfSteps {}
  | n + 1, item, counter, source, k, ss =>
    match source.next? with
    | none => pure .unit
    | some (v, rest) => do
      let once : Run (Option Value) := Run.inBlock do
        counter.forM fun s => Run.bring s (.int (.ofNat k)) false
        Run.bring item v false
        round n ss
      match ← once with
      | some w => return w
      | none => forLoop n item counter rest (k + 1) ss
termination_by structural fuel => fuel

/-- Is a value one that a case is for? -/
def matchesAny : Nat → Value → List Expr → Run Bool
  | 0, _, _ => .fail .outOfSteps {}
  | _, _, [] => pure false
  | n + 1, v, e :: rest => do
    let w ← expr n e
    let hit := match w, v with
      | .range _ _ _, .int _ => (Operation.contains? w v).getD false
      | w, v => Operation.equal w v
    if hit then return true else matchesAny n v rest
termination_by structural fuel => fuel

/-- The first case that is for a value. -/
def chooseCase : Nat → Value → List Case → Run Value
  | 0, _, _ => .fail .outOfSteps {}
  | _, _, [] => pure .unit
  | n + 1, v, .mk patterns guard ss :: rest => do
    let hit ← match patterns with
      | none => pure true
      | some ps => matchesAny n v ps
    let taken ← if hit then
        match guard with
        | some g => truth n g
        | none => pure true
      else pure false
    if taken then Run.inBlock (statements n ss) else chooseCase n v rest
termination_by structural fuel => fuel

/-- The module at a path, run now or before. -/
def importModule : Nat → String → Position → Run Module
  | 0, _, p => .fail .outOfSteps p
  | n + 1, path, p => do
    let st ← get
    let file := (if (Path.extension? path).isSome then
      String.ofList (path.toList.take (path.length - ((Path.extension? path).getD "").length - 1))
      else path) ++ ".rhai"
    match st.loaded.lookup file with
    | some m => return m
    | none =>
      match st.files.readText file with
      | .error _ => .fail (.moduleNotFound path) p
      | .ok text =>
        match Script.ofText text with
        | .error f => throw (.failed (.inModule path (.plain (.malformed f) none) p))
        | .ok script =>
          let enter (s : State) : State := { s with
            visible := [], functions := script.functions, modules := [], source := some path
            this := none, offered := [] }
          let run : Run Module := fun s =>
            let made (after : State) : Module :=
              ⟨path, script.functions, after.offered, after.modules⟩
            match statements n script.body s with
            | .ok _ after | .error (.returned _) after => .ok (made after) after
            | .error (.failed f) after => .error (.failed (.inModule path f p)) after
            | .error e after => .error e after
          let m ← Run.elsewhere enter run
          modify fun s => { s with loaded := (file, m) :: s.loaded }
          return m
termination_by structural fuel => fuel

/-- Runs a statement; its value. -/
def statement : Nat → Stmt → Run Value
  | 0, _ => .fail .outOfSteps {}
  | n + 1, s =>
    match s with
    | .expr e => expr n e
    | .declare isConstant name value exported _ => do
      let v ← match value with
        | some e => expr n e
        | none => pure .unit
      Run.bring name v isConstant
      if exported then modify fun st => { st with offered := (name, v) :: st.offered }
      return .unit
    | .assign op target value p => do
      let v ← expr n value
      match target with
      | .name [] name _ q =>
        if name = "this" then
          match (← get).this with
          | none => .fail .unboundThis q
          | some old =>
            let w ← replaced old (.assign op v p)
            modify fun st => { st with this := some w }
        else
          match (← get).lookup? name with
          | none => .fail (.variableNotFound name) q
          | some x =>
            if x.isConstant then .fail (.constantModified name) q
            let w ← replaced x.value (.assign op v p)
            modify fun st => { st with visible := setVariable name w st.visible }
      | .chain root links => discard (chainExpr n root links (.assign op v p))
      | e => .fail (.constantModified "") e.place
      return .unit
    | .branch c yes no _ => do
      if ← truth n c then Run.inBlock (statements n yes) else Run.inBlock (statements n no)
    | .while_ c ss _ => whileLoop n c ss
    | .repeat_ ss c until_ _ => repeatLoop n ss c until_
    | .for_ item counter source ss _ => do
      match Source.ofValue? (← expr n source) with
      | some found => forLoop n item counter found 0 ss
      | none => .fail .notIterable source.start
    | .switch subject cs _ => do chooseCase n (← expr n subject) cs
    | .break_ value _ => do
      let v ← match value with
        | some e => expr n e
        | none => pure .unit
      throw (.broken v)
    | .continue_ _ => throw .continued
    | .return_ value _ => do
      let v ← match value with
        | some e => expr n e
        | none => pure .unit
      throw (.returned v)
    | .throw_ value p => do
      let v ← match value with
        | some e => expr n e
        | none => pure .unit
      .fail (.thrown v) p
    | .try_ ss caught handler _ => fun s =>
      match Run.inBlock (statements n ss) s with
      | .error (.failed f) after =>
        if f.problem.isCatchable then
          let handle : Run Value := Run.inBlock do
            match caught with
            | some name => Run.bring name (f.caught after.source) false
            | none => pure ()
            statements n handler
          match handle after with
          | .error (.failed (.plain (.thrown .unit) (some p))) last =>
            .error (.failed (f.movedTo p)) last
          | .ok _ last => .ok .unit last
          | other => other
        else .error (.failed f) after
      | .ok _ after => .ok .unit after
      | other => other
    | .import_ path newName _ => do
      match ← expr n path with
      | .text s =>
        let m ← importModule n s path.place
        match newName with
        | some name => modify fun st => { st with modules := (name, m) :: st.modules }
        | none => pure ()
        return .unit
      | v => .fail (.dataType "string" v.typeName) path.place
    | .export_ name newName p => do
      match (← get).lookup? name with
      | some v =>
        modify fun st => { st with offered := (newName, v.value) :: st.offered }
        return .unit
      | none => .fail (.variableNotFound name) p
    | .block ss _ => Run.inBlock (statements n ss)
termination_by structural fuel => fuel

end

/-- Runs a script from its first statement on. -/
def Script.run (script : Script) (s : State) : EStateM.Result Stop State Value :=
  statements stepLimit script.body { s with functions := script.functions }

end ScriptHost.Rhai
