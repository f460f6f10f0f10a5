import Mathlib.Data.List.AList
import Mathlib.Data.List.Infix

/-!
# The two metadata servers

The store is served over HTTP by a server in C++ and by one in Python.  How the web framework
of each finds the `key` parameter in a query is a parameter of its handlers.
-/

namespace Mooncake.Metadata

open List

inductive Method where
  | get
  | put
  | delete
  deriving DecidableEq, Repr

structure Request where
  method : Method
  query : String
  body : List UInt8

structure Response where
  status : Nat
  body : List UInt8
  deriving DecidableEq, Repr

abbrev Store := AList fun _ : String => List UInt8

abbrev Handler := Store → Request → Response × Store

def respond (status : Nat) (text : String) : Response :=
  ⟨status, text.toUTF8.toList⟩

def isRpcMeta (key : String) : Bool :=
  decide ("rpc_meta".toList <:+: key.toList)

/-- The handlers of `HttpMetadataServer::init_server`, to which a missing parameter is empty. -/
def httpMetadataServer (getQueryValue : String → String) : Handler := fun store request =>
  let key := getQueryValue request.query
  if key = "" then (respond 400 "Missing key parameter", store)
  else
    match request.method with
    | .get =>
      match store.lookup key with
      | none => (respond 404 "metadata not found", store)
      | some value => (⟨200, value⟩, store)
    | .put =>
      match (if isRpcMeta key then store.lookup key else none) with
      | some value =>
        if value = request.body then (respond 200 "metadata unchanged", store)
        else (respond 400 "Duplicate rpc_meta key not allowed", store)
      | none => (respond 200 "metadata updated", store.insert key request.body)
    | .delete =>
      match store.lookup key with
      | none => (respond 404 "metadata not found", store)
      | some _ => (respond 200 "metadata deleted", store.erase key)

/-- `_handle_metadata` of the Python server. -/
def kvBootstrapServer (queryGet : String → Option String) : Handler := fun store request =>
  let key := (queryGet request.query).getD ""
  match request.method with
  | .get =>
    match store.lookup key with
    | none => (respond 404 "metadata not found", store)
    | some value => (⟨200, value⟩, store)
  | .put =>
    if isRpcMeta key ∧ key ∈ store then
      if store.lookup key = some request.body then (respond 200 "metadata unchanged", store)
      else (respond 400 "Duplicate rpc_meta key not allowed", store)
    else (respond 200 "metadata updated", store.insert key request.body)
  | .delete =>
    if key ∉ store then (respond 404 "metadata not found", store)
    else (respond 200 "metadata deleted", store.erase key)

/-- The answers to a sequence of requests. -/
def answers (handler : Handler) : Store → List Request → List Response
  | _, [] => []
  | store, request :: rest =>
    (handler store request).1 :: answers handler (handler store request).2 rest

/-! ## Agreement -/

variable {store : Store} {request : Request}

section Agreement

variable {getQueryValue : String → String} {queryGet : String → Option String}

/-- With the same key, which is not empty, both servers answer alike and keep the same store. -/
theorem handlers_agree (same : getQueryValue request.query = (queryGet request.query).getD "")
    (keyed : getQueryValue request.query ≠ "") :
    httpMetadataServer getQueryValue store request = kvBootstrapServer queryGet store request := by
  unfold httpMetadataServer kvBootstrapServer
  dsimp only
  rw [if_neg keyed, ← same]
  generalize getQueryValue request.query = key
  cases request.method with
  | get => rfl
  | put =>
    cases isRpcMeta key with
    | false => simp
    | true =>
      cases found : store.lookup key with
      | none =>
        have absent := AList.lookup_eq_none.mp found
        simp [absent]
      | some value =>
        have present := AList.lookup_isSome.mp (Option.isSome_of_eq_some found)
        simp [present]
  | delete =>
    cases found : store.lookup key with
    | none => simp [AList.lookup_eq_none.mp found]
    | some value => simp [AList.lookup_isSome.mp (Option.isSome_of_eq_some found)]

/-- Without a key only the C++ server refuses the request. -/
theorem handlers_differ (same : getQueryValue request.query = (queryGet request.query).getD "")
    (keyless : getQueryValue request.query = "") :
    (httpMetadataServer getQueryValue store request).1 ≠
      (kvBootstrapServer queryGet store request).1 := by
  have status : (kvBootstrapServer queryGet store request).1.status ≠ 400 := by
    have plain : isRpcMeta "" = false := by decide
    unfold kvBootstrapServer
    rw [← same, keyless]
    dsimp only
    cases request.method with
    | get => cases store.lookup "" <;> simp [respond]
    | put => simp [plain, respond]
    | delete => by_cases present : "" ∈ store <;> simp [present, respond]
  intro equal
  rw [← equal] at status
  simp [httpMetadataServer, keyless, respond] at status

theorem answers_agree_iff {requests : List Request}
    (same : ∀ request ∈ requests,
      getQueryValue request.query = (queryGet request.query).getD "") :
    answers (httpMetadataServer getQueryValue) store requests =
        answers (kvBootstrapServer queryGet) store requests ↔
      ∀ request ∈ requests, getQueryValue request.query ≠ "" := by
  induction requests generalizing store with
  | nil => simp [answers]
  | cons request rest ih =>
    obtain ⟨first, others⟩ := forall_mem_cons.mp same
    rw [answers, answers, List.cons.injEq, forall_mem_cons]
    by_cases keyed : getQueryValue request.query = ""
    · exact iff_of_false (fun equal => handlers_differ first keyed equal.1) fun all => all.1 keyed
    · rw [handlers_agree first keyed, ih others]
      simp [keyed]

end Agreement

/-- Where both frameworks find the same key in a query, the servers answer a sequence of
requests alike, from empty stores, exactly when every request has a key that is not empty. -/
theorem servers_interchangeable_iff (getQueryValue : String → String)
    (queryGet : String → Option String) (requests : List Request)
    (same : ∀ request ∈ requests,
      getQueryValue request.query = (queryGet request.query).getD "") :
    answers (httpMetadataServer getQueryValue) ∅ requests =
        answers (kvBootstrapServer queryGet) ∅ requests ↔
      ∀ request ∈ requests, ∃ key, queryGet request.query = some key ∧ key ≠ "" := by
  rw [answers_agree_iff same]
  refine forall₂_congr fun request listed => ?_
  rw [same request listed]
  cases queryGet request.query <;> simp

/-- A query that is nothing but `key=` and the key. -/
def plainKey (query : String) : Option String :=
  if query.toList.take 4 = ['k', 'e', 'y', '='] then some (.ofList (query.toList.drop 4))
  else none

theorem servers_interchangeable_at_key :
    let requests : List Request := [⟨.put, "key=a", [1]⟩, ⟨.get, "key=a", []⟩]
    answers (httpMetadataServer fun query => (plainKey query).getD "") ∅ requests =
      answers (kvBootstrapServer plainKey) ∅ requests := by
  intro requests
  refine (servers_interchangeable_iff _ plainKey requests fun _ _ => rfl).mpr ?_
  intro request listed
  refine ⟨"a", ?_, by decide⟩
  simp only [requests, mem_cons, not_mem_nil, or_false] at listed
  rcases listed with rfl | rfl <;> decide

/-- A PUT without a key is refused by one server and stored by the other, which then answers
a GET without a key. -/
theorem servers_differ_on_missing_key :
    let requests : List Request := [⟨.put, "", [1]⟩, ⟨.get, "key=", []⟩]
    let http := httpMetadataServer fun query => (plainKey query).getD ""
    (answers http ∅ requests).map Response.status = [400, 400] ∧
      (answers (kvBootstrapServer plainKey) ∅ requests).map Response.status = [200, 200] ∧
      answers http ∅ requests ≠ answers (kvBootstrapServer plainKey) ∅ requests := by
  intro requests http
  refine ⟨by decide, by decide, ?_⟩
  intro same
  have statuses := congrArg (List.map Response.status) same
  revert statuses
  decide

/-! ## Registers -/

/-- What a request makes of the value of its key; an `rpc_meta` value is kept until it is
deleted. -/
def Request.write (key : String) (held : Option (List UInt8)) (request : Request) :
    Option (List UInt8) :=
  match request.method with
  | .get => held
  | .put => if isRpcMeta key then held.or (some request.body) else some request.body
  | .delete => none

variable (getQueryValue : String → String)

theorem lookup_handled (key : String) :
    (httpMetadataServer getQueryValue store request).2.lookup key =
      if key ≠ "" ∧ getQueryValue request.query = key then request.write key (store.lookup key)
      else store.lookup key := by
  unfold httpMetadataServer Request.write
  generalize getQueryValue request.query = named
  by_cases empty : named = ""
  · simp [empty]
  · rw [if_neg empty]
    by_cases same : key = named
    · subst same
      cases request.method with
      | get => cases found : store.lookup key <;> simp [found]
      | put =>
        cases isRpcMeta key with
        | false => simp [empty]
        | true =>
          cases found : store.lookup key with
          | none => simp [empty]
          | some value =>
            by_cases unchanged : value = request.body <;> simp [empty, unchanged, found]
      | delete => cases found : store.lookup key <;> simp [empty, found]
    · cases request.method with
      | get => cases store.lookup named <;> simp
      | put =>
        cases (if isRpcMeta named then store.lookup named else none) with
        | none => simp [Ne.symm same, AList.lookup_insert_ne same]
        | some value =>
          by_cases unchanged : value = request.body <;> simp [Ne.symm same, unchanged]
      | delete => cases store.lookup named <;> simp [Ne.symm same, AList.lookup_erase_ne same]

/-- After any sequence of requests the C++ server holds each key as a register of its own, which
only the requests with this key write; the empty key is never written. -/
theorem keys_are_registers (requests : List Request) (key : String) :
    (requests.foldl (fun store request => (httpMetadataServer getQueryValue store request).2)
        store).lookup key =
      if key = "" then store.lookup key
      else (requests.filter fun request => getQueryValue request.query = key).foldl
        (Request.write key) (store.lookup key) := by
  induction requests generalizing store with
  | nil => exact (ite_self _).symm
  | cons request rest ih =>
    rw [foldl_cons, ih, lookup_handled]
    by_cases empty : key = ""
    · simp [empty]
    · by_cases mine : getQueryValue request.query = key <;> simp [empty, mine]

end Mooncake.Metadata
