import PgRoles.Lib.SecondaryIndex
import PgRoles.Operator.AccessRequest

/-!
# The watch-fed request index

The index consumes the events of the request watch. Requests are kept by reference, and three
indexes find them by the access policy they name, by the access policy they resolved to and by the
target policy. A relist fills a second copy, which replaces the live one when the list is complete.

Hash maps and hash sets are ordered ones here: their iteration order is unspecified in the source,
and results are stated up to permutation.

Whatever the events, the live copy holds the objects that a plain map fed by the same events holds
(`objects_observeAll`), and every lookup is a scan of that map (`lookups_eq_scan`).
-/

set_option autoImplicit false

namespace PgRoles.Operator

open Std PgRoles.Lib

/-! ## References and keys -/

/-- An object is identified by its namespace and name. -/
abbrev ObjectRef : Type := Option String × String

/-- The reference to a request: its namespace and its name. -/
def ObjectRef.fromObj (request : EphemeralAccessRequest) : ObjectRef := (request.ns, request.name)

/-- A key of an index, within a namespace. -/
abbrev NamespacedKey : Type := String × String

/-- A key in the request's own namespace. -/
def namespacedKey (request : EphemeralAccessRequest) (value : String) : NamespacedKey :=
  (request.ns.getD "", value)

/-- The key of a request in the index by the access policy it names. -/
def accessPolicyNameKey (request : EphemeralAccessRequest) : Option NamespacedKey :=
  some (namespacedKey request request.accessPolicyRef)

/-- The key in the index by resolved access policy; an unresolved request has none. -/
def accessPolicyUidKey (request : EphemeralAccessRequest) : Option NamespacedKey :=
  request.resolvedAccess.map fun resolved => namespacedKey request resolved.accessPolicyUid

/-- The key in the index by target policy; an unresolved request has none. -/
def targetPolicyUidKey (request : EphemeralAccessRequest) : Option NamespacedKey :=
  request.resolvedAccess.map fun resolved => namespacedKey request resolved.targetPolicyUid

/-! ## One copy of the index -/

/-- Drop a reference from under a key; a bucket left empty goes. -/
def removeRef (index : BTreeMap NamespacedKey (BTreeSet ObjectRef)) (key : NamespacedKey)
    (objectRef : ObjectRef) : BTreeMap NamespacedKey (BTreeSet ObjectRef) :=
  unlink index (some key) objectRef

/-- Put a reference under a key. -/
def insertRef (index : BTreeMap NamespacedKey (BTreeSet ObjectRef)) (key : NamespacedKey)
    (objectRef : ObjectRef) : BTreeMap NamespacedKey (BTreeSet ObjectRef) :=
  link index (some key) objectRef

/-- The requests, and the references to them under each of three keys. -/
structure IndexState where
  objects : BTreeMap ObjectRef EphemeralAccessRequest := ∅
  byAccessPolicyName : BTreeMap NamespacedKey (BTreeSet ObjectRef) := ∅
  byAccessPolicyUid : BTreeMap NamespacedKey (BTreeSet ObjectRef) := ∅
  byTargetPolicyUid : BTreeMap NamespacedKey (BTreeSet ObjectRef) := ∅

/-- Take an object out, from under the keys it was stored with. -/
def IndexState.remove (state : IndexState) (objectRef : ObjectRef) : IndexState :=
  match state.objects[objectRef]? with
  | none => state
  | some request =>
      let state := { state with
        objects := state.objects.erase objectRef
        byAccessPolicyName := removeRef state.byAccessPolicyName
          (namespacedKey request request.accessPolicyRef) objectRef }
      match request.resolvedAccess with
      | none => state
      | some resolved => { state with
          byAccessPolicyUid := removeRef state.byAccessPolicyUid
            (namespacedKey request resolved.accessPolicyUid) objectRef
          byTargetPolicyUid := removeRef state.byTargetPolicyUid
            (namespacedKey request resolved.targetPolicyUid) objectRef }

/-- Store a version of an object in place of the one before. -/
def IndexState.upsert (state : IndexState) (request : EphemeralAccessRequest) : IndexState :=
  let objectRef := ObjectRef.fromObj request
  let state := state.remove objectRef
  let state := { state with
    byAccessPolicyName := insertRef state.byAccessPolicyName
      (namespacedKey request request.accessPolicyRef) objectRef }
  let state := match request.resolvedAccess with
    | none => state
    | some resolved => { state with
        byAccessPolicyUid := insertRef state.byAccessPolicyUid
          (namespacedKey request resolved.accessPolicyUid) objectRef
        byTargetPolicyUid := insertRef state.byTargetPolicyUid
          (namespacedKey request resolved.targetPolicyUid) objectRef }
  { state with objects := state.objects.insert objectRef request }

/-- The objects an index lists under a key. -/
def IndexState.valuesFor (state : IndexState)
    (index : BTreeMap NamespacedKey (BTreeSet ObjectRef)) (key : NamespacedKey) :
    List EphemeralAccessRequest :=
  lookup state.objects index key

/-! ## The watch -/

/-- An event of the watch. -/
inductive WatchEvent where
  | apply (request : EphemeralAccessRequest)
  | delete (request : EphemeralAccessRequest)
  | init
  | initApply (request : EphemeralAccessRequest)
  | initDone
  deriving DecidableEq

/-- The live copy, the copy a relist fills, and whether a list was ever complete. -/
structure RequestIndex where
  live : IndexState := {}
  initializing : Option IndexState := none
  ready : Bool := false

/-- Observe one event. -/
def RequestIndex.observe (index : RequestIndex) : WatchEvent → RequestIndex
  | .apply request => { index with live := index.live.upsert request }
  | .delete request => { index with live := index.live.remove (ObjectRef.fromObj request) }
  | .init => { index with initializing := some {} }
  | .initApply request =>
      { index with initializing := index.initializing.map (·.upsert request) }
  | .initDone =>
      { live := index.initializing.getD index.live, initializing := none, ready := true }

/-- The index after the events, from the start. -/
def observeAll (events : List WatchEvent) : RequestIndex :=
  events.foldl RequestIndex.observe {}

/-- The first list did not complete in time. -/
inductive IndexNotReady where
  | timedOut
  deriving DecidableEq

/-- The index as it stands when the wait for the first list ends. -/
def RequestIndex.waitReady (index : RequestIndex) : Except IndexNotReady IndexState :=
  if index.ready then .ok index.live else .error .timedOut

/-- The requests that name an access policy. -/
def RequestIndex.forAccessPolicyName (index : RequestIndex) (ns name : String) :
    Except IndexNotReady (List EphemeralAccessRequest) := do
  let state ← index.waitReady
  return state.valuesFor state.byAccessPolicyName (ns, name)

/-- The requests that were resolved to an access policy. -/
def RequestIndex.forAccessPolicyUid (index : RequestIndex) (ns uid : String) :
    Except IndexNotReady (List EphemeralAccessRequest) := do
  let state ← index.waitReady
  return state.valuesFor state.byAccessPolicyUid (ns, uid)

/-- The requests that were resolved to a target policy. -/
def RequestIndex.forTargetPolicyUid (index : RequestIndex) (ns uid : String) :
    Except IndexNotReady (List EphemeralAccessRequest) := do
  let state ← index.waitReady
  return state.valuesFor state.byTargetPolicyUid (ns, uid)

/-! ## The map the index stands for -/

/-- What the watch has told so far: the objects, and those listed since an open `init`. -/
structure WatchedObjects where
  live : BTreeMap ObjectRef EphemeralAccessRequest := ∅
  listing : Option (BTreeMap ObjectRef EphemeralAccessRequest) := none

/-- The objects that exist after an event of the watch. -/
def WatchedObjects.observe (watched : WatchedObjects) : WatchEvent → WatchedObjects
  | .apply request =>
      { watched with live := watched.live.insert (ObjectRef.fromObj request) request }
  | .delete request => { watched with live := watched.live.erase (ObjectRef.fromObj request) }
  | .init => { watched with listing := some ∅ }
  | .initApply request =>
      { watched with listing := watched.listing.map (·.insert (ObjectRef.fromObj request) request) }
  | .initDone => { live := watched.listing.getD watched.live, listing := none }

/-- The objects after the events, from the start. -/
def watchedAfter (events : List WatchEvent) : WatchedObjects :=
  events.foldl WatchedObjects.observe {}

/-- The objects a scan selects. -/
def scan (objects : BTreeMap ObjectRef EphemeralAccessRequest)
    (key : EphemeralAccessRequest → Option NamespacedKey) (k : NamespacedKey) :
    List EphemeralAccessRequest :=
  (objects.toList.map Prod.snd).filter fun request => decide (key request = some k)

/-! ## The three indexes agree with the objects -/

/-- Each index lists exactly the objects with a key, under that key. -/
structure IndexState.Consistent (state : IndexState) : Prop where
  name : Indexes accessPolicyNameKey state.objects state.byAccessPolicyName
  uid : Indexes accessPolicyUidKey state.objects state.byAccessPolicyUid
  target : Indexes targetPolicyUidKey state.objects state.byTargetPolicyUid

theorem IndexState.Consistent.default : ({} : IndexState).Consistent where
  name := Indexes.empty _
  uid := Indexes.empty _
  target := Indexes.empty _

/-- A removal unlinks each index under the key the stored version has there, if any. -/
theorem IndexState.remove_eq (state : IndexState) (objectRef : ObjectRef) :
    state.remove objectRef =
      { objects := state.objects.erase objectRef
        byAccessPolicyName := unlink state.byAccessPolicyName
          (state.objects[objectRef]?.bind accessPolicyNameKey) objectRef
        byAccessPolicyUid := unlink state.byAccessPolicyUid
          (state.objects[objectRef]?.bind accessPolicyUidKey) objectRef
        byTargetPolicyUid := unlink state.byTargetPolicyUid
          (state.objects[objectRef]?.bind targetPolicyUidKey) objectRef } := by
  unfold IndexState.remove
  cases hrequest : state.objects[objectRef]? with
  | none =>
    have herase : state.objects.erase objectRef = state.objects := by
      refine ExtTreeMap.ext_getElem? fun r => ?_
      rw [getElem?_erase_eq]
      split_ifs with hr
      · rw [← hr, hrequest]
      · rfl
    rw [herase]
    rfl
  | some request =>
    cases hresolved : request.resolvedAccess with
    | none => simp [unlink, removeRef, accessPolicyNameKey, accessPolicyUidKey,
        targetPolicyUidKey, hresolved]
    | some resolved => simp [unlink, removeRef, accessPolicyNameKey, accessPolicyUidKey,
        targetPolicyUidKey, hresolved]

theorem IndexState.Consistent.remove {state : IndexState} (h : state.Consistent)
    (objectRef : ObjectRef) : (state.remove objectRef).Consistent := by
  rw [IndexState.remove_eq]
  exact ⟨h.name.erase objectRef, h.uid.erase objectRef, h.target.erase objectRef⟩

/-- An upsert is a removal followed by linking the new version under each of its keys. -/
theorem IndexState.upsert_eq (state : IndexState) (request : EphemeralAccessRequest) :
    state.upsert request =
      let removed := state.remove (ObjectRef.fromObj request)
      { objects := removed.objects.insert (ObjectRef.fromObj request) request
        byAccessPolicyName := link removed.byAccessPolicyName (accessPolicyNameKey request)
          (ObjectRef.fromObj request)
        byAccessPolicyUid := link removed.byAccessPolicyUid (accessPolicyUidKey request)
          (ObjectRef.fromObj request)
        byTargetPolicyUid := link removed.byTargetPolicyUid (targetPolicyUidKey request)
          (ObjectRef.fromObj request) } := by
  unfold IndexState.upsert
  cases hresolved : request.resolvedAccess with
  | none => simp [link, insertRef, accessPolicyNameKey, accessPolicyUidKey, targetPolicyUidKey,
      hresolved]
  | some resolved => simp [link, insertRef, accessPolicyNameKey, accessPolicyUidKey,
      targetPolicyUidKey, hresolved]

theorem IndexState.objects_remove (state : IndexState) (objectRef : ObjectRef) :
    (state.remove objectRef).objects = state.objects.erase objectRef := by
  rw [IndexState.remove_eq]

theorem IndexState.objects_upsert (state : IndexState) (request : EphemeralAccessRequest) :
    (state.upsert request).objects =
      state.objects.insert (ObjectRef.fromObj request) request := by
  rw [IndexState.upsert_eq]
  dsimp only
  rw [IndexState.objects_remove]
  refine ExtTreeMap.ext_getElem? fun r => ?_
  rw [getElem?_insert_eq, getElem?_insert_eq, getElem?_erase_eq]
  split_ifs <;> rfl

theorem IndexState.Consistent.upsert {state : IndexState} (h : state.Consistent)
    (request : EphemeralAccessRequest) : (state.upsert request).Consistent := by
  have hremoved := h.remove (ObjectRef.fromObj request)
  have hnew : (state.remove (ObjectRef.fromObj request)).objects[ObjectRef.fromObj request]? =
      none := by
    rw [IndexState.objects_remove, getElem?_erase_eq, if_pos rfl]
  rw [IndexState.upsert_eq]
  exact ⟨hremoved.name.insert hnew request, hremoved.uid.insert hnew request,
    hremoved.target.insert hnew request⟩

/-! ## The index along a run -/

/-- Both copies are consistent and hold what the watch told; the index is ready once a list has
completed. -/
structure RequestIndex.Follows (index : RequestIndex) (watched : WatchedObjects) : Prop where
  live : index.live.Consistent
  initializing : ∀ buffer, index.initializing = some buffer → buffer.Consistent
  objects : index.live.objects = watched.live
  listing : index.initializing.map (·.objects) = watched.listing

/-- One event keeps the index in step with the map. -/
theorem RequestIndex.Follows.observe {index : RequestIndex} {watched : WatchedObjects}
    (h : index.Follows watched) (event : WatchEvent) :
    (index.observe event).Follows (watched.observe event) := by
  cases event with
  | apply request =>
    refine ⟨h.live.upsert request, h.initializing, ?_, h.listing⟩
    exact (IndexState.objects_upsert _ _).trans (by rw [h.objects]; rfl)
  | delete request =>
    refine ⟨h.live.remove _, h.initializing, ?_, h.listing⟩
    exact (IndexState.objects_remove _ _).trans (by rw [h.objects]; rfl)
  | init =>
    refine ⟨h.live, fun buffer hbuffer => ?_, h.objects, rfl⟩
    cases hbuffer
    exact IndexState.Consistent.default
  | initApply request =>
    refine ⟨h.live, fun buffer hbuffer => ?_, h.objects, ?_⟩
    · obtain ⟨before, hbefore, rfl⟩ := Option.map_eq_some_iff.1 hbuffer
      exact (h.initializing before hbefore).upsert request
    · show (index.initializing.map (·.upsert request)).map (·.objects) =
        watched.listing.map (·.insert (ObjectRef.fromObj request) request)
      rw [← h.listing, Option.map_map, Option.map_map]
      congr 1
      funext buffer
      exact IndexState.objects_upsert buffer request
  | initDone =>
    -- the buffer, if a relist is open, takes the place of the live copy
    refine ⟨?_, nofun, ?_, rfl⟩
    · show (index.initializing.getD index.live).Consistent
      cases hbuffer : index.initializing with
      | none => exact h.live
      | some buffer => exact h.initializing buffer hbuffer
    · show (index.initializing.getD index.live).objects = watched.listing.getD watched.live
      rw [← h.listing, ← h.objects]
      cases index.initializing <;> rfl

theorem follows_foldl (events : List WatchEvent) :
    ∀ {index : RequestIndex} {watched : WatchedObjects}, index.Follows watched →
      (events.foldl RequestIndex.observe index).Follows
        (events.foldl WatchedObjects.observe watched) := by
  induction events with
  | nil => exact fun h => h
  | cons event events ih => exact fun h => ih (h.observe event)

theorem follows_observeAll (events : List WatchEvent) :
    (observeAll events).Follows (watchedAfter events) := by
  apply follows_foldl
  exact ⟨IndexState.Consistent.default, nofun, rfl, rfl⟩

theorem objects_observeAll (events : List WatchEvent) :
    (observeAll events).live.objects = (watchedAfter events).live :=
  (follows_observeAll events).objects

/-- The index answers from the first completed list on. -/
theorem ready_observeAll (events : List WatchEvent) :
    (observeAll events).ready = true ↔ WatchEvent.initDone ∈ events := by
  have hstep : ∀ (events : List WatchEvent) (index : RequestIndex),
      (events.foldl RequestIndex.observe index).ready = true ↔
        index.ready = true ∨ WatchEvent.initDone ∈ events := by
    intro events
    induction events with
    | nil => simp
    | cons event events ih =>
      intro index
      rw [List.foldl_cons, ih]
      cases event <;> simp [RequestIndex.observe]
  rw [observeAll, hstep]
  simp

/-! ## What a relist leaves -/

/-- The objects a stretch of events adds to a list, each in its last version. -/
def listedFrom (listed : BTreeMap ObjectRef EphemeralAccessRequest) :
    List WatchEvent → BTreeMap ObjectRef EphemeralAccessRequest
  | [] => listed
  | .initApply request :: events =>
      listedFrom (listed.insert (ObjectRef.fromObj request) request) events
  | _ :: events => listedFrom listed events

/-- Between an `init` and its `initDone` the list grows by the listed objects only. -/
theorem listing_foldl {events : List WatchEvent} (hinit : WatchEvent.init ∉ events)
    (hdone : WatchEvent.initDone ∉ events) (watched : WatchedObjects)
    (listed : BTreeMap ObjectRef EphemeralAccessRequest) (hlisted : watched.listing = some listed) :
    (events.foldl WatchedObjects.observe watched).listing = some (listedFrom listed events) := by
  induction events generalizing watched listed with
  | nil => exact hlisted
  | cons event events ih =>
    have hrest := ih (fun h => hinit (List.mem_cons_of_mem _ h))
      (fun h => hdone (List.mem_cons_of_mem _ h))
    cases event with
    | apply request => exact hrest _ listed hlisted
    | delete request => exact hrest _ listed hlisted
    | init => exact absurd List.mem_cons_self hinit
    | initDone => exact absurd List.mem_cons_self hdone
    | initApply request =>
      apply hrest
      show watched.listing.map _ = _
      rw [hlisted]
      rfl

/-- When a list completes, the live objects are those listed since the matching `init`. -/
theorem live_relist (before : List WatchEvent) {during : List WatchEvent}
    (hinit : WatchEvent.init ∉ during) (hdone : WatchEvent.initDone ∉ during) :
    (watchedAfter (before ++ WatchEvent.init :: during ++ [WatchEvent.initDone])).live =
      listedFrom ∅ during := by
  unfold watchedAfter
  rw [List.foldl_append, List.foldl_append, List.foldl_cons, List.foldl_cons, List.foldl_nil]
  have hlisting := listing_foldl hinit hdone
    ((before.foldl WatchedObjects.observe {}).observe .init) ∅ rfl
  show (during.foldl WatchedObjects.observe _).listing.getD _ = _
  rw [hlisting]
  rfl

/-! ## Lookups -/

/-- No bucket is empty, and every reference in one is that of an object. -/
def Tidy (objects : BTreeMap ObjectRef EphemeralAccessRequest)
    (index : BTreeMap NamespacedKey (BTreeSet ObjectRef)) : Prop :=
  ∀ (k : NamespacedKey) (refs : BTreeSet ObjectRef), index[k]? = some refs →
    refs.isEmpty = false ∧ ∀ r ∈ refs, ∃ request, objects[r]? = some request

theorem tidy_of_indexes {key : EphemeralAccessRequest → Option NamespacedKey}
    {objects : BTreeMap ObjectRef EphemeralAccessRequest}
    {index : BTreeMap NamespacedKey (BTreeSet ObjectRef)} (h : Indexes key objects index) :
    Tidy objects index := by
  intro k refs hrefs
  refine ⟨h.nonempty k refs hrefs, fun r hr => ?_⟩
  obtain ⟨request, hrequest, -⟩ := (h.mem_iff k r).1 (by rw [bucket, hrefs]; exact hr)
  exact ⟨request, hrequest⟩

/-- A lookup answers with the objects of a scan, in some order. -/
def AnswersScan (answer : Except IndexNotReady (List EphemeralAccessRequest))
    (scanned : List EphemeralAccessRequest) : Prop :=
  ∃ found, answer = .ok found ∧ found.Perm scanned

/-- A lookup through an index that agrees with the objects, once the index is ready. -/
theorem answersScan_of_indexes {index : RequestIndex} (hready : index.ready = true)
    {key : EphemeralAccessRequest → Option NamespacedKey}
    (bucketsOf : IndexState → BTreeMap NamespacedKey (BTreeSet ObjectRef))
    (h : Indexes key index.live.objects (bucketsOf index.live)) (k : NamespacedKey) :
    AnswersScan (do let state ← index.waitReady; return state.valuesFor (bucketsOf state) k)
      (scan index.live.objects key k) := by
  refine ⟨index.live.valuesFor (bucketsOf index.live) k, ?_, h.lookup_perm k⟩
  simp only [RequestIndex.waitReady, hready, if_true]
  rfl

/-- Whatever the events, the live copy holds the objects the watch has told, no index has an empty
bucket or a reference to an absent object, and from the first completed list on the three lookups
answer with the objects that a scan selects, once each; a completed list leaves exactly the objects
listed since its `init`. -/
theorem lookups_eq_scan (events : List WatchEvent) :
    ((observeAll events).live.objects = (watchedAfter events).live ∧
      Tidy (watchedAfter events).live (observeAll events).live.byAccessPolicyName ∧
      Tidy (watchedAfter events).live (observeAll events).live.byAccessPolicyUid ∧
      Tidy (watchedAfter events).live (observeAll events).live.byTargetPolicyUid) ∧
    ((WatchEvent.initDone ∈ events ↔ (observeAll events).ready = true) ∧
      ((observeAll events).ready = true → ∀ ns value : String,
        AnswersScan ((observeAll events).forAccessPolicyName ns value)
          (scan (watchedAfter events).live accessPolicyNameKey (ns, value)) ∧
        AnswersScan ((observeAll events).forAccessPolicyUid ns value)
          (scan (watchedAfter events).live accessPolicyUidKey (ns, value)) ∧
        AnswersScan ((observeAll events).forTargetPolicyUid ns value)
          (scan (watchedAfter events).live targetPolicyUidKey (ns, value)))) ∧
    ∀ before during : List WatchEvent, WatchEvent.init ∉ during → WatchEvent.initDone ∉ during →
      events = before ++ WatchEvent.init :: during ++ [WatchEvent.initDone] →
      (observeAll events).live.objects = listedFrom ∅ during := by
  have hobjects := objects_observeAll events
  have hlive := (follows_observeAll events).live
  refine ⟨⟨hobjects, ?_, ?_, ?_⟩, ⟨(ready_observeAll events).symm, fun hready ns value => ?_⟩, ?_⟩
  · rw [← hobjects]
    exact tidy_of_indexes hlive.name
  · rw [← hobjects]
    exact tidy_of_indexes hlive.uid
  · rw [← hobjects]
    exact tidy_of_indexes hlive.target
  · rw [← hobjects]
    refine ⟨?_, ?_, ?_⟩
    · exact answersScan_of_indexes hready (·.byAccessPolicyName) hlive.name _
    · exact answersScan_of_indexes hready (·.byAccessPolicyUid) hlive.uid _
    · exact answersScan_of_indexes hready (·.byTargetPolicyUid) hlive.target _
  · intro before during hinit hdone heq
    rw [hobjects, heq]
    exact live_relist before hinit hdone

/-- A request seen unresolved, then applied with its resolution: the lookup by target policy finds
it in the new version. -/
example :
    let pending : EphemeralAccessRequest :=
      { name := "req", ns := some "prod", uid := some "u", resourceVersion := some "1"
        accessPolicyRef := "readers", status := none }
    let resolved : EphemeralAccessRequest :=
      { pending with
        resourceVersion := some "2"
        status := some ⟨.active, some ⟨"a", "t", "fp", ephemeralBundleEncodingV1, "h", []⟩⟩ }
    (observeAll [.init, .initApply pending, .initDone, .apply resolved]).forTargetPolicyUid
      "prod" "t" = .ok [resolved] := by
  decide +kernel

end PgRoles.Operator
