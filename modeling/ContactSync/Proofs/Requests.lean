/-
Requests, field by field.

Every request of a node goes to an address below its workspace and carries its token (`Node.request_eq`); a body changes
nothing else of it (`withBody_eq`).

Setting a parameter keeps the place of a name that is there already and puts a new name at the end, so no name comes
twice (`Request.Named`), the last value wins, and nothing else of the request changes (`reissues_withParam`).
-/
import ContactSync.Hub.Workspace
import Mathlib.Data.List.Nodup
import Mathlib.Tactic.SplitIfs

namespace ContactSync

namespace Request

def names (params : List (String × String)) : List String := params.map Prod.fst

/-- no parameter is set under one name twice -/
def Named (r : Request) : Prop := (names r.params).Nodup

/-- the request again, with this value of a parameter, which stands where the original has it or else comes last -/
structure Reissues (original : Request) (name value : String) (r : Request) : Prop where
  method : r.method = original.method
  url : r.url = original.url
  headers : r.headers = original.headers
  body : r.body = original.body
  named : r.Named
  params : (∃ before old after, original.params = before ++ (name, old) :: after ∧
      r.params = before ++ (name, value) :: after) ∨
    (name ∉ names original.params ∧ r.params = original.params ++ [(name, value)])

/-! ## Rows of parameters -/

variable {name value : String} {params before after : List (String × String)}

theorem setParam_of_notMem (h : name ∉ names params) (value : String) :
    setParam name value params = params ++ [(name, value)] := by
  induction params with
  | nil => rfl
  | cons p params ih =>
    rw [names, List.map_cons, List.mem_cons, not_or] at h
    rw [setParam, if_neg (Ne.symm h.1), ih h.2]
    rfl

theorem setParam_append_cons (h : name ∉ names before) (old value : String) :
    setParam name value (before ++ (name, old) :: after) = before ++ (name, value) :: after := by
  induction before with
  | nil => exact if_pos rfl
  | cons p before ih =>
    rw [names, List.map_cons, List.mem_cons, not_or] at h
    rw [List.cons_append, setParam, if_neg (Ne.symm h.1), ih h.2]
    rfl

/-- where a name that is there stands first -/
theorem split_of_mem_names (h : name ∈ names params) :
    ∃ before old after, params = before ++ (name, old) :: after ∧ name ∉ names before := by
  induction params with
  | nil => exact absurd h List.not_mem_nil
  | cons p params ih =>
    obtain ⟨n, v⟩ := p
    by_cases hn : n = name
    · exact ⟨[], v, params, by rw [hn]; rfl, List.not_mem_nil⟩
    · obtain ⟨before, old, after, rfl, hb⟩ := ih ((List.mem_cons.1 h).resolve_left (Ne.symm hn))
      refine ⟨(n, v) :: before, old, after, rfl, ?_⟩
      rw [names, List.map_cons, List.mem_cons, not_or]
      exact ⟨Ne.symm hn, hb⟩

theorem nodup_names_setParam (h : (names params).Nodup) (name value : String) :
    (names (setParam name value params)).Nodup := by
  by_cases hn : name ∈ names params
  · obtain ⟨before, old, after, rfl, hb⟩ := split_of_mem_names hn
    rw [setParam_append_cons hb]
    simpa [names] using h
  · rw [setParam_of_notMem hn, names, List.map_append, List.nodup_append]
    refine ⟨h, List.nodup_singleton _, ?_⟩
    intro n hm last hs heq
    have hlast : last = name := List.mem_singleton.1 hs
    exact hn (hlast ▸ heq ▸ hm)

theorem setParam_setParam (name v w : String) (params : List (String × String)) :
    setParam name w (setParam name v params) = setParam name w params := by
  by_cases hn : name ∈ names params
  · obtain ⟨before, old, after, rfl, hb⟩ := split_of_mem_names hn
    rw [setParam_append_cons hb, setParam_append_cons hb, setParam_append_cons hb]
  · rw [setParam_of_notMem hn v, setParam_append_cons hn, setParam_of_notMem hn w]

/-! ## Requests -/

variable {r : Request}

theorem withParam_withParam (r : Request) (name v w : String) :
    (r.withParam name v).withParam name w = r.withParam name w :=
  congrArg (fun params => { r with params := params }) (setParam_setParam name v w r.params)

theorem param?_withParam (r : Request) (name value : String) : (r.withParam name value).param? name = some value := by
  have hfind : ∀ params : List (String × String),
      (setParam name value params).find? (fun p => p.1 == name) = some (name, value) := by
    intro params
    induction params with
    | nil => simp [setParam]
    | cons p params ih =>
      unfold setParam
      split_ifs with hn
      · simp [hn]
      · rw [List.find?_cons_of_neg (by simpa using hn), ih]
  rw [param?, withParam, hfind]
  rfl

theorem Named.withParam (h : r.Named) (name value : String) : (r.withParam name value).Named :=
  nodup_names_setParam h name value

theorem Named.withParam? (h : r.Named) (name : String) (value : Option String) : (r.withParam? name value).Named := by
  cases value with
  | none => exact h
  | some v => exact h.withParam name v

/-- **A parameter that is set changes nothing else.** -/
theorem reissues_withParam (h : r.Named) (name value : String) : r.Reissues name value (r.withParam name value) where
  method := rfl
  url := rfl
  headers := rfl
  body := rfl
  named := h.withParam name value
  params := by
    by_cases hn : name ∈ names r.params
    · obtain ⟨before, old, after, hp, hb⟩ := split_of_mem_names hn
      exact .inl ⟨before, old, after, hp, by rw [withParam, hp]; exact setParam_append_cons hb old value⟩
    · exact .inr ⟨hn, setParam_of_notMem hn value⟩

theorem withBody_eq (r : Request) (body : Json) : r.withBody body =
    { method := r.method, url := r.url, headers := r.headers, params := r.params, body := some body } := rfl

end Request

/-! ## Requests of a node -/

namespace Node

/-- the address of a place below the workspace -/
def address (n : Node) (place : String) : String :=
  n.config.baseUrl ++ "/workspaces/" ++ n.config.workspaceId ++ place

/-- the headers of every request: the token, and the kind of every body -/
def credentials (n : Node) : List (String × String) :=
  [("Authorization", "Bearer " ++ n.config.token), ("Content-Type", "application/json")]

variable (n : Node) (method : Method)

theorem url_eq (segments : List String) : n.url segments = n.address (String.join (segments.map ("/" ++ ·))) := by
  have hfold : ∀ start : String,
      segments.foldl (fun text s => text ++ "/" ++ s) start = start ++ String.join (segments.map ("/" ++ ·)) := by
    induction segments with
    | nil => exact fun start => String.append_empty.symm
    | cons s segments ih =>
      intro start
      rw [List.foldl_cons, ih, List.map_cons, String.join_cons]
      simp only [String.append_assoc]
  exact hfold _

theorem request_eq (segments : List String) : n.request method segments =
    { method := method, url := n.address (String.join (segments.map ("/" ++ ·))), headers := n.credentials,
      params := [], body := none } := by
  rw [← url_eq]
  rfl

theorem request_customers : n.request method ["customers"] =
    { method := method, url := n.address "/customers", headers := n.credentials, params := [], body := none } :=
  request_eq n method ["customers"]

theorem request_customer (id : String) : n.request method ["customers", id] =
    { method := method, url := n.address ("/customers/" ++ id), headers := n.credentials, params := [],
      body := none } := by
  have hplace : String.join ["/customers", "/" ++ id] = "/customers/" ++ id := by
    rw [String.join_cons, String.join_cons, String.join_nil, String.append_empty, ← String.append_assoc]
    rfl
  rw [← hplace]
  exact request_eq n method ["customers", id]

end Node

end ContactSync
