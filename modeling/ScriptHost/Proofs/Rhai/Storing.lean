import ScriptHost.Proofs.Json
import ScriptHost.Proofs.Rhai.Independence

/-!
# A script that stores the handles

JSON that has become a value comes out as that JSON again, but for integers that have no room
(`Value.toJson?_ofJson`). So a script that stores the handles under a key of the results publishes
them under that key (`Embedded.seen_run_of_storesHost`).
-/

namespace ScriptHost.Rhai

/-! ## JSON in and out -/

namespace Value

open Json (narrowed narrowedItems narrowedFields)

/-- What becomes of a float on its way out. -/
def outgoing (x : Float) : Json := if isFinite x then .float x else .null

theorem outgoing_ne_int (x : Float) (n : Int) : outgoing x ≠ .int n := by
  unfold outgoing
  split <;> exact Json.noConfusion

mutual

/-- **In and out.** -/
theorem toJson?_ofJson {j : Json} (h : j.isPlain) :
    (ofJson j).toJson? = .ok (j.narrowed outgoing) := by
  cases j with
  | null | bool _ | str _ => rfl
  | int n =>
    obtain ⟨hlow, -⟩ := of_decide_eq_true h
    rw [ofJson, narrowed]
    split
    · rename_i hle
      rw [toJson?, Int64.toInt_ofInt_of_le hlow (Int.lt_add_one_of_le hle)]
    · rfl
  | float x => cases h
  | arr items =>
    rw [ofJson, toJson?, toItems?_ofItems h]
    rfl
  | obj fields =>
    rw [ofJson, toJson?, toFields?_ofFields ((Bool.and_eq_true _ _).mp h).2]
    rfl

theorem toItems?_ofItems {items : List Json} (h : Json.arePlain items) :
    toItems? (ofItems items) = .ok (narrowedItems outgoing items) := by
  cases items with
  | nil => rfl
  | cons item rest =>
    obtain ⟨hitem, hrest⟩ := (Bool.and_eq_true _ _).mp h
    rw [ofItems, toItems?, toJson?_ofJson hitem, toItems?_ofItems hrest]
    rfl

theorem toFields?_ofFields {fields : List (String × Json)} (h : Json.havePlain fields) :
    toFields? (ofFields fields) = .ok (narrowedFields outgoing fields) := by
  cases fields with
  | nil => rfl
  | cons field rest =>
    obtain ⟨name, value⟩ := field
    obtain ⟨hvalue, hrest⟩ := (Bool.and_eq_true _ _).mp h
    rw [ofFields, toFields?, toJson?_ofJson hvalue, toFields?_ofFields hrest]
    rfl

end

end Value

/-! ## The script -/

/-- The text is an assignment of the handles to a field of the results: `__result__.key = __host__`
or `__result__["key"] = __host__`, with or without a semicolon. -/
def StoresHost (text key : String) : Prop :=
  ∃ target ∈ ([[.mark ".", .name key], [.mark "[", .text key, .mark "]"]] : List (List Token)),
    ∃ ending ∈ ([[.finish], [.mark ";", .finish]] : List (List Token)),
      (Token.ofText text).map Prod.fst =
        .name "__result__" :: target ++ [.mark "=", .name "__host__"] ++ ending

/-- Tokens have their places. -/
theorem exists_places {text : String} {tokens : List Token}
    (h : (Token.ofText text).map Prod.fst = tokens) :
    ∃ place : Nat → Position,
      Token.ofText text = tokens.zipIdx.map fun x => (x.1, place x.2) := by
  refine ⟨fun i => ((Token.ofText text)[i]?.map Prod.snd).getD {}, ?_⟩
  rw [← h]
  refine List.ext_getElem (by simp) fun i hi _ => ?_
  simp [List.getElem?_eq_getElem hi]

/-- A link to the field of a name. -/
inductive Link.IsFor (key : String) : Link → Prop where
  | index (place mark : Position) : IsFor key (.index (.constant (.text key) place) mark false)
  | property (mark place : Position) : IsFor key (.property key mark place false)

/-- The text is a script of that one statement. -/
theorem ofText_of_storesHost {text key : String} (h : StoresHost text key) :
    ∃ link p q r, Link.IsFor key link ∧
      Script.ofText text = .ok ⟨[], [.assign none (.chain (.name [] "__result__" p p) [link])
        (.name [] "__host__" q q) r]⟩ := by
  obtain ⟨target, htarget, ending, hending, htokens⟩ := h
  obtain ⟨place, hplaces⟩ := exists_places htokens
  simp only [List.mem_cons, List.not_mem_nil, or_false] at htarget hending
  rw [Script.ofText, hplaces]
  obtain rfl | rfl := htarget
  · refine ⟨_, place 0, place 4, place 3, .property (place 1) (place 2), ?_⟩
    obtain rfl | rfl := hending <;> rfl
  · refine ⟨_, place 0, place 5, place 4, .index (place 2) (place 1), ?_⟩
    obtain rfl | rfl := hending <;> rfl

/-- The statement gives the results the handles under the key, and nothing else. -/
theorem statements_storing {key : String} {link : Link} (h : link.IsFor key) (n : Nat)
    (p q r : Position) (v : Invocation) {s : State} (hs : s.visible = Embedded.scope v) :
    statements (n + 8) [.assign none (.chain (.name [] "__result__" p p) [link])
        (.name [] "__host__" q q) r] s =
      .ok .unit { s with
        visible := setVariable "__result__" (.map [(key, .ofJson v.handles.toJson)])
          (Embedded.scope v) } := by
  obtain ⟨⟩ := s
  cases hs
  cases h with
  | index => rfl
  | property => rfl

namespace Embedded

/-- What is published of one field. -/
theorem published_storing {s : State} {v : Invocation} {key : String} {j : Json} (hj : j.isPlain)
    (hs : s.visible = setVariable "__result__" (.map [(key, .ofJson j)]) (scope v)) :
    published s = ([(key, j.narrowed Value.outgoing)], []) := by
  have hfind : s.lookup? "__result__" = some ⟨"__result__", .map [(key, .ofJson j)], false⟩ := by
    rw [State.lookup?, hs]
    rfl
  rw [published, hfind]
  dsimp only [results, List.foldr_cons, List.foldr_nil]
  rw [Value.toJson?_ofJson hj]

/-- **A script that stores the handles** has succeeded, whatever modules are loaded, and its one
result are the handles, but for integers that have no room. -/
theorem seen_run_of_storesHost (e : Embedded) {files : Files} {v : Invocation} {source key : String}
    (hread : files.readText v.path = .ok source) (hstores : StoresHost source key)
    (hplain : v.handles.toJson.isPlain) (sink : Nat) :
    (e.run files v sink).2.seen sink =
      (.succeeded, { results := [(key, v.handles.toJson.narrowed Value.outgoing)] }, []) := by
  obtain ⟨link, p, q, r, hlink, hscript⟩ := ofText_of_storesHost hstores
  have hrun := statements_storing hlink 3999999992 p q r v
    (s := { files, visible := scope v, loaded := e.loaded }) rfl
  rw [(run_of_ok hread hscript hrun sink).2, published_storing hplain rfl]
  rfl

end Embedded

end ScriptHost.Rhai
