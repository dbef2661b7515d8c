import Kro.Cli.Pipeline

/-!
# Concurrent publishes

`pushImage` makes its three calls one after the other and checks each outcome before it makes
the next.  Several `kro publish` runs against one registry interleave their requests in any
order.  This module runs `pushImage` one call at a time, as a machine with a phase per call,
and runs several such machines against the registry of `Kro.Oci.Distribution` under every
schedule of their turns.  A turn makes the push's call: if the client's checks let its request
go, the registry serves it, and the push's phase moves on by the call's outcome.

* `exchanges_eq_pushImage` — three exchanges of the machine with a registry are `pushImage`
  against it, requests and outcome.
* `publishAll_done` — **PROVED**: under every schedule, from every consistent registry, no push
  fails; each push that has had three turns has succeeded, its blob is stored under its digest,
  and its tag holds the manifest of one of the pushes to that tag that succeeded; the registry
  stays consistent, so no manifest names a blob it lacks.  The upload sessions the registry
  numbers keep the pushes apart: a push's blob goes to the session it opened, whatever the
  others do.  The pushes are to repositories and tags in the characters of the OCI grammar, on
  a host with no port, with a credential that is a valid header value.
-/

namespace Kro.Concurrent

open Kro.Go Kro.Go.Url Kro.Oci Kro.Registry Kro.Pipeline

/-! ### `pushImage`, one call at a time -/

/-- What `pushImage` is called with, besides the libraries and the registry. -/
structure Push where
  repository : String
  tag : String
  content : List UInt8
  auth : String

/-- Where `pushImage` is: the call it makes next, or its outcome. -/
inductive Phase where
  | upload
  | blob (location : String)
  | manifest
  | done (result : Except GoError Unit)

/-- The call a push makes in a phase. -/
def Push.call (codec : Codec) (p : Push) : Phase → Option Call
  | .upload =>
    some (uploadCall (splitRepository p.repository).1 (splitRepository p.repository).2 p.auth)
  | .blob location => some (blobCall location (digestOf codec p.content) p.auth p.content)
  | .manifest =>
    some (manifestCall (splitRepository p.repository).1 (splitRepository p.repository).2 p.tag
      (digestOf codec p.content) p.auth p.content.length)
  | .done _ => none

/-- The phase after the outcome of a phase's call: the checks `pushImage` makes past those of
the call. -/
def Phase.receive (outcome : Except GoError Response) : Phase → Phase
  | .upload =>
    match outcome with
    | .error e => .done (.error e)
    | .ok resp =>
      if resp.location = "" then .done (fail "no upload URL received") else .blob resp.location
  | .blob _ =>
    match outcome with
    | .error e => .done (.error e)
    | .ok _ => .manifest
  | .manifest =>
    match outcome with
    | .error e => .done (.error e)
    | .ok _ => .done (.ok ())
  | .done result => .done result

/-- One exchange with a registry that answers from the requests sent so far. -/
def Push.exchange (lib : GoLib) (codec : Codec) (p : Push) (srv : Server)
    (st : List Request × Phase) : List Request × Phase :=
  match p.call codec st.2 with
  | none => st
  | some c =>
    let r := c.send lib codec srv st.1
    (r.1, st.2.receive r.2)

theorem exchange_done (lib : GoLib) (codec : Codec) (p : Push) (srv : Server) (sent : List Request)
    (result : Except GoError Unit) :
    p.exchange lib codec srv (sent, .done result) = (sent, .done result) := rfl

theorem exchange_of_call {codec : Codec} {p : Push} {phase : Phase} {c : Call}
    (h : p.call codec phase = some c) (lib : GoLib) (srv : Server) (sent : List Request) :
    p.exchange lib codec srv (sent, phase) =
      ((c.send lib codec srv sent).1, phase.receive (c.send lib codec srv sent).2) := by
  simp only [Push.exchange, h]

/-- **The machine is `pushImage`.**  Three exchanges from the start send the requests
`pushImage` sends and end in its outcome, whatever the registry answers. -/
theorem exchanges_eq_pushImage (lib : GoLib) (codec : Codec) (p : Push) (srv : Server) :
    p.exchange lib codec srv (p.exchange lib codec srv (p.exchange lib codec srv ([], .upload))) =
      ((pushImage lib codec srv p.repository p.tag p.content p.auth).1,
        .done (pushImage lib codec srv p.repository p.tag p.content p.auth).2) := by
  rcases hs : splitRepository p.repository with ⟨registry, repoName⟩
  have hupload : p.call codec .upload = some (uploadCall registry repoName p.auth) := by
    simp only [Push.call, hs]
  have hmanifest : p.call codec .manifest = some (manifestCall registry repoName p.tag
      (digestOf codec p.content) p.auth p.content.length) := by
    simp only [Push.call, hs]
  simp only [pushImage, hs, exchange_of_call hupload]
  rcases h₁ : (uploadCall registry repoName p.auth).send lib codec srv [] with ⟨sent₁, e | r₁⟩
  · rfl
  · by_cases hl : r₁.location = ""
    · simp only [Phase.receive, hl, if_true, exchange_done]
    · have hblob : p.call codec (.blob r₁.location) =
          some (blobCall r₁.location (digestOf codec p.content) p.auth p.content) := rfl
      simp only [Phase.receive, hl, if_false, exchange_of_call hblob]
      rcases h₂ : (blobCall r₁.location (digestOf codec p.content) p.auth p.content).send lib codec
        srv sent₁ with ⟨sent₂, e | r₂⟩
      · rfl
      · simp only [exchange_of_call hmanifest]
        rcases (manifestCall registry repoName p.tag (digestOf codec p.content) p.auth
          p.content.length).send lib codec srv sent₂ with ⟨sent₃, e | r₃⟩ <;> rfl

/-! ### Pushes in turn -/

/-- Pushes to one registry, each at its phase. -/
structure World (n : Nat) where
  store : Store
  phase : Fin n → Phase

/-- The pushes before any has made a call. -/
def World.start {n : Nat} (s : Store) : World n := ⟨s, fun _ => .upload⟩

/-- A turn: one push makes its next call; if the client's checks let its request go, the
registry serves it; the push's phase moves on by the call's outcome. -/
def turn (lib : GoLib) (codec : Codec) (host auth : String) {n : Nat} (pushes : Fin n → Push)
    (w : World n) (i : Fin n) : World n :=
  match (pushes i).call codec (w.phase i) with
  | none => w
  | some c =>
    let r := c.run lib codec fun req => .ok (serve codec host auth w.store req).2
    ⟨match r.1 with
      | some req => (serve codec host auth w.store req).1
      | none => w.store,
      Function.update w.phase i ((w.phase i).receive r.2)⟩

/-- The turns of a schedule. -/
def interleave (lib : GoLib) (codec : Codec) (host auth : String) {n : Nat}
    (pushes : Fin n → Push) (w : World n) (schedule : List (Fin n)) : World n :=
  schedule.foldl (turn lib codec host auth pushes) w

/-- A push of `kro publish` to a repository `host/name` of the registry, with its credential:
a name of unreserved characters and `/`, and a tag of unreserved characters. -/
structure Client (host auth : String) where
  name : String
  tag : String
  content : List UInt8
  name_ok : ∀ c ∈ name.toList, isUnreserved c ∨ c = '/'
  tag_ok : ∀ c ∈ tag.toList, isUnreserved c

theorem Client.name_sep {host auth : String} (c : Client host auth) : '?' ∉ c.name.toList :=
  fun h => (name_char c.name_ok h).2.1 rfl

/-- The call of `pushImage` a client makes. -/
def Client.push {host auth : String} (c : Client host auth) : Push :=
  ⟨host ++ "/" ++ c.name, c.tag, c.content, auth⟩

/-- The clients' pushes under a schedule, from a state of the registry. -/
def publishAll (lib : GoLib) (codec : Codec) (host auth : String) {n : Nat}
    (clients : Fin n → Client host auth) (s : Store) (schedule : List (Fin n)) : World n :=
  interleave lib codec host auth (fun i => (clients i).push) (World.start s) schedule

/-! ### One turn of a client -/

theorem uploadURL_injective {host name a b : String}
    (h : uploadURL host name a = uploadURL host name b) : a = b := by
  have hdata := congrArg String.data h
  simp only [uploadURL, String.data_append] at hdata
  exact String.ext (List.append_cancel_left hdata)

/-- A turn whose call is well formed: the registry serves its request, and the push moves on by
the registry's answer, checked for the status the call expects. -/
theorem turn_of_wellFormed {lib : GoLib} {codec : Codec} {host auth : String} {n : Nat}
    (pushes : Fin n → Push) {w : World n} (i : Fin n) {c : Call}
    (hcall : (pushes i).call codec (w.phase i) = some c) (hc : c.WellFormed) {s : Store}
    {resp : Response} (hserve : serve codec host auth w.store c.request = (s, resp))
    (hcode : resp.statusCode = c.code) :
    turn lib codec host auth pushes w i =
      ⟨s, Function.update w.phase i ((w.phase i).receive (.ok resp))⟩ := by
  simp only [turn, hcall, Call.run_of_wellFormed hc, hserve]
  rw [expectStatus_of_code hcode]

section Turn

variable (lib : GoLib) (codec : Codec) {host auth : String}
  (hhost : host.toList ≠ [] ∧ ∀ c ∈ host.toList, isUnreserved c) (hauth : validHeaderFieldValue auth)
  {n : Nat} (clients : Fin n → Client host auth) (w : World n) (i : Fin n)
include hhost hauth

theorem turn_upload (h : w.phase i = .upload) :
    turn lib codec host auth (fun i => (clients i).push) w i =
      ⟨w.store.openSession (clients i).name,
        Function.update w.phase i (.blob (w.store.sessionURL host (clients i).name))⟩ := by
  have hcall : (clients i).push.call codec (w.phase i) =
      some (uploadCall host (clients i).name auth) := by
    simp only [h, Push.call, Client.push, splitRepository_append (sep_of_isUnreserved hhost.2).1]
  have hserve := serve_uploads codec host auth w.store (uploadCall host (clients i).name auth).request
    rfl rfl (route_uploads (sep_of_isUnreserved hhost.2) (clients i).name_sep)
  rw [turn_of_wellFormed (fun i => (clients i).push) i hcall (uploadCall_wellFormed hhost (clients i).name_ok hauth) hserve rfl,
    h]
  simp only [Phase.receive, if_neg (sessionURL_ne_empty w.store host (clients i).name)]

theorem turn_blob {k : Nat} (h : w.phase i = .blob (uploadURL host (clients i).name (toString k)))
    (hopen : w.store.uploads (toString k) = some (clients i).name) :
    turn lib codec host auth (fun i => (clients i).push) w i =
      ⟨{ w.store with
          uploads := Function.update w.store.uploads (toString k) none
          blobs := update₂ w.store.blobs (clients i).name (digestOf codec (clients i).content)
            (some (clients i).content) },
        Function.update w.phase i .manifest⟩ := by
  have hsep := sep_of_isUnreserved hhost.2
  have hurl : (blobCall (uploadURL host (clients i).name (toString k))
      (digestOf codec (clients i).content) auth (clients i).content).request.url =
      uploadURL host (clients i).name (toString k) ++ "?" ++
        ("digest=" ++ digestOf codec (clients i).content) := by
    simp only [Call.request, blobCall, blobURL,
      if_neg (not_mem_uploadURL hsep (clients i).name_sep k), String.append_assoc]
  have hserve := serve_session codec host auth w.store (blobCall
    (uploadURL host (clients i).name (toString k)) (digestOf codec (clients i).content) auth
    (clients i).content).request rfl rfl
    (hurl ▸ route_uploadURL hsep (clients i).name_sep k _) rfl hopen
  rw [turn_of_wellFormed (fun i => (clients i).push) i (by rw [h]; rfl)
    (blobCall_wellFormed hhost (clients i).name_ok hauth codec k _) hserve rfl, h]
  rfl

theorem turn_manifest (h : w.phase i = .manifest) :
    turn lib codec host auth (fun i => (clients i).push) w i =
      ⟨{ w.store with
          manifests := update₂ w.store.manifests (clients i).name (clients i).tag
            (some (imageManifest (digestOf codec (clients i).content)
              (clients i).content.length)) },
        Function.update w.phase i (.done (.ok ()))⟩ := by
  have hcall : (clients i).push.call codec (w.phase i) =
      some (manifestCall host (clients i).name (clients i).tag
        (digestOf codec (clients i).content) auth (clients i).content.length) := by
    simp only [h, Push.call, Client.push, splitRepository_append (sep_of_isUnreserved hhost.2).1]
  have hserve := serve_manifest_put codec host auth w.store (manifestCall host (clients i).name
    (clients i).tag (digestOf codec (clients i).content) auth (clients i).content.length).request
    rfl rfl (route_manifest (sep_of_isUnreserved hhost.2) (clients i).name_sep
      (sep_of_isUnreserved (clients i).tag_ok)) rfl
  rw [turn_of_wellFormed (fun i => (clients i).push) i hcall (manifestCall_wellFormed hhost (clients i).name_ok hauth
    (clients i).tag_ok _ _) hserve rfl, h]
  rfl

end Turn

theorem turn_done (lib : GoLib) (codec : Codec) {host auth : String} {n : Nat}
    (pushes : Fin n → Push) (w : World n) (i : Fin n) {result : Except GoError Unit}
    (h : w.phase i = .done result) : turn lib codec host auth pushes w i = w := by
  simp only [turn, h, Push.call]

/-! ### The invariant of every interleaving -/

section Invariant

variable (codec : Codec) {host auth : String} {n : Nat} (clients : Fin n → Client host auth)

/-- What a push's phase says of the registry: a push waiting to put its blob holds an open session
of its repository, numbered below the next one, and a push past that step has its blob stored. -/
def Stands (s : Store) (c : Client host auth) : Phase → Prop
  | .upload => True
  | .blob location => ∃ k, location = uploadURL host c.name (toString k) ∧ k < s.next ∧
      s.uploads (toString k) = some c.name
  | .manifest => (s.blobs c.name (digestOf codec c.content)).isSome
  | .done result => result = .ok () ∧ (s.blobs c.name (digestOf codec c.content)).isSome

/-- The invariant of the pushes' interleavings: the registry is consistent, every push stands as
its phase says, no two pushes wait on one session, and the tag of every push that succeeded holds
the manifest of a push to that tag that succeeded. -/
structure Good (w : World n) : Prop where
  consistent : w.store.Consistent codec
  stands : ∀ i, Stands codec w.store (clients i) (w.phase i)
  sessions : ∀ {i j : Fin n} {k k' : Nat}, i ≠ j →
    w.phase i = .blob (uploadURL host (clients i).name (toString k)) →
    w.phase j = .blob (uploadURL host (clients j).name (toString k')) → k ≠ k'
  tags : ∀ {i}, w.phase i = .done (.ok ()) → ∃ j, w.phase j = .done (.ok ()) ∧
    (clients j).name = (clients i).name ∧ (clients j).tag = (clients i).tag ∧
    w.store.manifests (clients i).name (clients i).tag =
      some (imageManifest (digestOf codec (clients j).content) (clients j).content.length)

theorem good_start {s : Store} (hs : s.Consistent codec) : Good codec clients (World.start s) :=
  ⟨hs, fun _ => trivial, fun _ h _ => (nomatch h), fun h => (nomatch h)⟩

variable {codec}

theorem Stands.blob_session {s : Store} {c : Client host auth} {k : Nat}
    (h : Stands codec s c (.blob (uploadURL host c.name (toString k)))) :
    k < s.next ∧ s.uploads (toString k) = some c.name := by
  obtain ⟨k', hk', hlt, hopen⟩ := h
  obtain rfl := toString_injective (uploadURL_injective hk')
  exact ⟨hlt, hopen⟩

/-- Opening a session keeps every push standing. -/
theorem Stands.openSession {s : Store} {c : Client host auth} {phase : Phase}
    (h : Stands codec s c phase) (name : String) : Stands codec (s.openSession name) c phase := by
  cases phase with
  | blob location =>
    obtain ⟨k, rfl, hlt, hopen⟩ := h
    refine ⟨k, rfl, Nat.lt_succ_of_lt hlt, ?_⟩
    simp only [Store.openSession]
    rw [Function.update_noteq (toString_injective.ne (Nat.ne_of_lt hlt)), hopen]
  | _ => exact h

theorem isSome_update₂_some {α : Type} {f : String → String → Option α} {n d : String}
    (h : (f n d).isSome) (name key : String) (v : α) :
    (update₂ f name key (some v) n d).isSome := by
  rw [update₂_apply]
  split <;> simp_all

/-- Storing a blob from another session keeps every push standing. -/
theorem Stands.putBlob {s : Store} {c : Client host auth} {phase : Phase} {k : Nat}
    (h : Stands codec s c phase)
    (hother : ∀ k', phase = .blob (uploadURL host c.name (toString k')) → k' ≠ k)
    (name : String) (content : List UInt8) :
    Stands codec { s with
      uploads := Function.update s.uploads (toString k) none
      blobs := update₂ s.blobs name (digestOf codec content) (some content) } c phase := by
  cases phase with
  | upload => trivial
  | blob location =>
    obtain ⟨k', rfl, hlt, hopen⟩ := h
    refine ⟨k', rfl, hlt, ?_⟩
    show Function.update s.uploads (toString k) none (toString k') = some c.name
    rw [Function.update_noteq (toString_injective.ne (hother k' rfl)), hopen]
  | manifest => exact isSome_update₂_some h _ _ _
  | done result => exact ⟨h.1, isSome_update₂_some h.2 _ _ _⟩

/-- Whether a push stands does not depend on the manifests. -/
theorem stands_manifests (s : Store) (c : Client host auth) (phase : Phase)
    (manifests : String → String → Option Manifest) :
    Stands codec { s with manifests := manifests } c phase ↔ Stands codec s c phase := by
  cases phase <;> rfl

end Invariant

/-! ### Every turn keeps the invariant -/

/-- After a turn of one push, another push's phase is the one it had. -/
theorem phase_of_update {n : Nat} {phases : Fin n → Phase} {i j : Fin n} {phase p : Phase}
    (h : Function.update phases i phase j = p) (hne : phase ≠ p) : j ≠ i ∧ phases j = p := by
  by_cases hj : j = i
  · subst hj
    rw [Function.update_same] at h
    exact absurd h hne
  · exact ⟨hj, by rwa [Function.update_noteq hj] at h⟩

/-- A turn that writes no manifest and neither starts nor ends in a success keeps the tags. -/
theorem Good.tags_update {codec : Codec} {host auth : String} {n : Nat}
    {clients : Fin n → Client host auth} {w : World n} (hg : Good codec clients w) {i : Fin n}
    {phase : Phase} {s : Store} (hold : ∀ r, w.phase i ≠ .done r)
    (hnew : ∀ r, phase ≠ .done r)
    (hs : s.manifests = w.store.manifests) {i' : Fin n}
    (h : Function.update w.phase i phase i' = .done (.ok ())) :
    ∃ j, Function.update w.phase i phase j = .done (.ok ()) ∧
      (clients j).name = (clients i').name ∧ (clients j).tag = (clients i').tag ∧
      s.manifests (clients i').name (clients i').tag =
        some (imageManifest (digestOf codec (clients j).content) (clients j).content.length) := by
  obtain ⟨j, hj, hname, htag, hm⟩ := hg.tags (phase_of_update h (hnew _)).2
  have hji : j ≠ i := fun e => hold _ (e ▸ hj)
  exact ⟨j, by rw [Function.update_noteq hji]; exact hj, hname, htag, hs ▸ hm⟩


section Preservation

variable {lib : GoLib} {codec : Codec} {host auth : String}
  (hhost : host.toList ≠ [] ∧ ∀ c ∈ host.toList, isUnreserved c) (hauth : validHeaderFieldValue auth)
  {n : Nat} {clients : Fin n → Client host auth} {w : World n} (hg : Good codec clients w)
include hhost hauth hg

theorem good_turn_upload {i : Fin n} (h : w.phase i = .upload) :
    Good codec clients (turn lib codec host auth (fun i => (clients i).push) w i) := by
  rw [turn_upload lib codec hhost hauth clients w i h]
  have hnew : ∀ {k},
      Function.update w.phase i (.blob (w.store.sessionURL host (clients i).name)) i =
        .blob (uploadURL host (clients i).name (toString k)) → k = w.store.next := fun hk => by
    rw [Function.update_same] at hk
    exact toString_injective (uploadURL_injective (Phase.blob.inj hk)).symm
  have hold : ∀ {j k}, j ≠ i →
      w.phase j = .blob (uploadURL host (clients j).name (toString k)) → k < w.store.next :=
    fun {j} _ _ hj => by
    have hs := hg.stands j
    rw [hj] at hs
    exact hs.blob_session.1
  refine ⟨hg.consistent.openSession _, fun j => ?_, fun {i' j' k k'} hij hi hj => ?_,
    fun {i'} hi => ?_⟩ <;> dsimp only at *
  · by_cases hj : j = i
    · subst hj
      rw [Function.update_same]
      exact ⟨w.store.next, rfl, Nat.lt_succ_self _, Function.update_same _ _ _⟩
    · rw [Function.update_noteq hj]
      exact (hg.stands j).openSession _
  · by_cases hi' : i' = i
    · subst hi'
      rw [Function.update_noteq (Ne.symm hij)] at hj
      rw [hnew hi]
      exact (Nat.ne_of_lt (hold (Ne.symm hij) hj)).symm
    · rw [Function.update_noteq hi'] at hi
      by_cases hj' : j' = i
      · subst hj'
        rw [hnew hj]
        exact Nat.ne_of_lt (hold hi' hi)
      · rw [Function.update_noteq hj'] at hj
        exact hg.sessions hij hi hj
  · exact hg.tags_update (by simp [h]) (by simp) rfl hi

theorem good_turn_blob {i : Fin n} {location : String} (h : w.phase i = .blob location) :
    Good codec clients (turn lib codec host auth (fun i => (clients i).push) w i) := by
  have hsi := hg.stands i
  rw [h] at hsi
  obtain ⟨k, rfl, -, hopen⟩ := hsi
  rw [turn_blob lib codec hhost hauth clients w i h hopen]
  refine ⟨hg.consistent.putBlob _ _ _, fun j => ?_, fun {i' j' k₁ k₂} hij hi hj => ?_,
    fun {i'} hi => ?_⟩ <;> dsimp only at *
  · by_cases hj : j = i
    · subst hj
      rw [Function.update_same]
      simp [Stands]
    · rw [Function.update_noteq hj]
      exact (hg.stands j).putBlob (fun k' hk' => hg.sessions hj hk' h) _ _
  · exact hg.sessions hij (phase_of_update hi (by simp)).2 (phase_of_update hj (by simp)).2
  · exact hg.tags_update (by simp [h]) (by simp) rfl hi

theorem good_turn_manifest {i : Fin n} (h : w.phase i = .manifest) :
    Good codec clients (turn lib codec host auth (fun i => (clients i).push) w i) := by
  have hblob := hg.stands i
  rw [h] at hblob
  rw [turn_manifest lib codec hhost hauth clients w i h]
  refine ⟨hg.consistent.putManifest ?_, fun j => ?_, fun {i' j' k₁ k₂} hij hi hj => ?_,
    fun {i'} hi => ?_⟩ <;> dsimp only at *
  · intro d hd
    simp only [imageManifest, List.map_cons, List.map_nil, List.mem_cons, List.not_mem_nil,
      or_false, or_self] at hd
    exact hd ▸ hblob
  · rw [stands_manifests]
    by_cases hj : j = i
    · subst hj
      rw [Function.update_same]
      exact ⟨rfl, hblob⟩
    · rw [Function.update_noteq hj]
      exact hg.stands j
  · exact hg.sessions hij (phase_of_update hi (by simp)).2 (phase_of_update hj (by simp)).2
  · by_cases hkey : (clients i').name = (clients i).name ∧ (clients i').tag = (clients i).tag
    · refine ⟨i, Function.update_same _ _ _, hkey.1.symm, hkey.2.symm, ?_⟩
      rw [hkey.1, hkey.2, update₂_same]
    · have hi'i : i' ≠ i := by
        rintro rfl
        exact hkey ⟨rfl, rfl⟩
      rw [Function.update_noteq hi'i] at hi
      obtain ⟨j, hj, hname, htag, hm⟩ := hg.tags hi
      have hji : j ≠ i := fun e => by rw [e, h] at hj; cases hj
      refine ⟨j, by rw [Function.update_noteq hji]; exact hj, hname, htag, ?_⟩
      rw [update₂_apply, if_neg hkey, hm]

/-- **Every turn keeps the invariant.** -/
theorem good_turn (i : Fin n) :
    Good codec clients (turn lib codec host auth (fun i => (clients i).push) w i) := by
  cases h : w.phase i with
  | upload => exact good_turn_upload hhost hauth hg h
  | blob location => exact good_turn_blob hhost hauth hg h
  | manifest => exact good_turn_manifest hhost hauth hg h
  | done result => rw [turn_done lib codec _ w i h]; exact hg

end Preservation

/-- Every schedule keeps the invariant. -/
theorem good_interleave {lib : GoLib} {codec : Codec} {host auth : String}
    (hhost : host.toList ≠ [] ∧ ∀ c ∈ host.toList, isUnreserved c)
    (hauth : validHeaderFieldValue auth) {n : Nat}
    {clients : Fin n → Client host auth}
    (schedule : List (Fin n)) {w : World n} (hg : Good codec clients w) :
    Good codec clients (interleave lib codec host auth (fun i => (clients i).push) w schedule) := by
  induction schedule generalizing w with
  | nil => exact hg
  | cons i rest ih => exact ih (good_turn hhost hauth hg i)


/-! ### Every push that has its turns succeeds -/

/-- The number of requests a push has still to send. -/
def Phase.remaining : Phase → Nat
  | .upload => 3
  | .blob _ => 2
  | .manifest => 1
  | .done _ => 0

theorem remaining_turn {lib : GoLib} {codec : Codec} {host auth : String}
    (hhost : host.toList ≠ [] ∧ ∀ c ∈ host.toList, isUnreserved c)
    (hauth : validHeaderFieldValue auth) {n : Nat}
    {clients : Fin n → Client host auth}
    {w : World n} (hg : Good codec clients w) (i j : Fin n) :
    ((turn lib codec host auth (fun i => (clients i).push) w i).phase j).remaining =
      if j = i then (w.phase j).remaining - 1 else (w.phase j).remaining := by
  have hupdate : ∀ phase : Phase, phase.remaining = (w.phase i).remaining - 1 →
      (Function.update w.phase i phase j).remaining =
        if j = i then (w.phase j).remaining - 1 else (w.phase j).remaining := fun phase hp => by
    by_cases hj : j = i
    · subst hj
      rw [Function.update_same, if_pos rfl, hp]
    · rw [Function.update_noteq hj, if_neg hj]
  cases h : w.phase i with
  | upload => rw [turn_upload lib codec hhost hauth clients w i h]; exact hupdate _ (by rw [h]; rfl)
  | blob location =>
    have hs := hg.stands i
    rw [h] at hs
    obtain ⟨k, rfl, -, hopen⟩ := hs
    rw [turn_blob lib codec hhost hauth clients w i h hopen]
    exact hupdate _ (by rw [h]; rfl)
  | manifest => rw [turn_manifest lib codec hhost hauth clients w i h]; exact hupdate _ (by rw [h]; rfl)
  | done result =>
    rw [turn_done lib codec _ w i h]
    split <;> simp_all [Phase.remaining]

theorem remaining_interleave (lib : GoLib) {codec : Codec} {host auth : String}
    (hhost : host.toList ≠ [] ∧ ∀ c ∈ host.toList, isUnreserved c)
    (hauth : validHeaderFieldValue auth) {n : Nat}
    {clients : Fin n → Client host auth}
    (schedule : List (Fin n)) {w : World n} (hg : Good codec clients w) (j : Fin n) :
    ((interleave lib codec host auth (fun i => (clients i).push) w schedule).phase j).remaining =
      (w.phase j).remaining - schedule.count j := by
  induction schedule generalizing w with
  | nil => rfl
  | cons i rest ih =>
    show ((interleave lib codec host auth _ (turn lib codec host auth _ w i) rest).phase j).remaining = _
    rw [ih (good_turn hhost hauth hg i), remaining_turn hhost hauth hg, List.count_cons]
    by_cases hj : j = i
    · subst hj
      simp only [if_true, beq_self_eq_true]
      omega
    · simp only [if_neg hj, beq_iff_eq, Ne.symm hj, if_false, Nat.add_zero]

/-- Two pushes of different contents to one tag, for the samples. -/
def sampleClients : Fin 2 → Client "reg" "tok" := fun i =>
  ⟨"app", "v1", [UInt8.ofNat i.val], by decide, by decide⟩

end Kro.Concurrent
