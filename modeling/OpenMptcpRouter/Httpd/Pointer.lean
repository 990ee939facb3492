/-
The upload server with `boundary_value` as the pointer it is (`httpd/httpd.c`).

In `Httpd.State` the boundary is a text or absent.  Here it is a pointer into a heap, and
the places of `httpd.c` that allocate, free and follow it are modelled as such: `malloc`
and the assignment in the `POST` branch, `free` in `httpd_state_reset`, the first `strstr`
and `strlen` in `httpd_findandstore_firstchunk`, and the `strlen` that decides whether an
upload is complete.  All of these can fail; everything else is `Httpd.Appcall`'s.

* `appcall_refines` — one call: from a server that owns its boundary and is well formed it
  succeeds, does what `httpdAppcall` does and leaves a server that owns its boundary;
* `tryRun_appcall` — so every run from the initial globals does;
* `upload_representation` — **what holds of the globals before and after every call.**
-/
import OpenMptcpRouter.Httpd.Invariant
import OpenMptcpRouter.Lib.Heap

namespace Httpd.Pointer

open CString Memory Heap

/-- Where blocks are. -/
abbrev Addr := ℕ

/-- The server with `boundary_value` as a pointer. -/
structure Server where
  /-- everything but the boundary; the field `boundaryValue` is not looked at -/
  globals : State
  boundaryValue : Option Addr
  heap : Heap Addr (List UInt8)

/-- The initial globals, over RAM content `ram`. -/
def initial (ram : Ram) : Server := ⟨Httpd.initial ram, none, ∅⟩

/-- `httpd_state_reset`. -/
def httpdStateReset (v : Server) : Except Fault Server :=
  match v.boundaryValue with
  | none => pure { v with globals := Httpd.httpdStateReset v.globals }
  | some p => do
    let heap ← free v.heap (some p)
    pure ⟨Httpd.httpdStateReset v.globals, none, heap⟩

/-- `httpd_state_reset (); uip_abort (); return;` -/
def resetAbort (v : Server) : Except Fault (Server × Out) := do
  let v ← httpdStateReset v
  pure (v, { reply := .abort })

/-- `httpd_findandstore_firstchunk`. -/
def httpdFindandstoreFirstchunk (v : Server) (e : Event) :
    Except Fault (Server × Bool × List (ℕ × ℕ)) :=
  match v.boundaryValue with
  | none => pure (v, false, [])
  | some p => do
    let bv ← load v.heap (some p)
    let r := Httpd.httpdFindandstoreFirstchunk { v.globals with boundaryValue := some bv } e
    pure ({ v with globals := r.1 }, r.2)

/-- New data in `STATE_NONE`, a `GET` request. -/
def handleGet (fs : Fs) (v : Server) (e : Event) : Except Fault (Server × Out) :=
  match requestName e.appdata with
  | none => resetAbort v
  | some name =>
    let s := servePage v.globals (requestFile fs name)
    pure ({ v with globals := s }, { send := some (chunk s e.mss) })

/-- New data in `STATE_NONE`, a `POST` request. -/
def handlePost (A : Allocator Addr) (v : Server) (e : Event) : Except Fault (Server × Out) :=
  match contentLength e.appdataZ with
  | none => resetAbort v
  | some n =>
    let s := { v.globals with
      smallFileFlag := v.globals.smallFileFlag || decide (n < smallFileSize) }
    match boundary e.appdataZ with
    | none => resetAbort { v with globals := s }
    | some bv =>
      -- the pointer is overwritten, whatever it was, and the block filled if there is one
      match malloc A v.heap e.malloc bv with
      | (none, heap) => resetAbort ⟨s, none, heap⟩
      | (some p, heap) => do
        let r ← httpdFindandstoreFirstchunk ⟨beginUpload v.globals n bv, some p, heap⟩ e
        pure ({ r.1 with globals := { r.1.globals with dataStartFound := r.2.1 } },
          { stores := (loadaddr, maxUbootSize) :: r.2.2 })

/-- New data in `STATE_NONE`. -/
def handleRequest (A : Allocator Addr) (fs : Fs) (v : Server) (e : Event) :
    Except Fault (Server × Out) :=
  if isGet e.appdata then handleGet fs v e
  else if isPost e.appdata then handlePost A v e
  else resetAbort v

/-- `uip_acked ()`. -/
def handleAcked (v : Server) (e : Event) : Except Fault (Server × Out) :=
  if v.globals.state = .fileRequest then
    if v.globals.upload ≤ e.mss then do
      let v ← httpdStateReset { v with globals := commit v.globals }
      pure (v, { reply := .close })
    else
      let s := { v.globals with
        dataptr := v.globals.dataptr.drop e.len
        upload := u32 ((v.globals.upload : ℤ) - e.len) }
      pure ({ v with globals := s }, { send := some (chunk s e.mss) })
  else pure (v, {})

/-- `uip_rexmit ()`. -/
def handleRexmit (v : Server) (e : Event) : Except Fault (Server × Out) :=
  if v.globals.state = .fileRequest then pure (v, { send := some (chunk v.globals e.mss) })
  else pure (v, {})

/-- `hs->upload >= hs->upload_total + strlen (boundary_value) + 6`. -/
def bodyComplete (v : Server) : Except Fault Bool := do
  let bv ← load v.heap v.boundaryValue
  pure (Httpd.bodyComplete { v.globals with boundaryValue := some bv })

/-- End of the upload: the page is chosen, `hs` is reset and the page is served. -/
def finishUpload (fs : Fs) (v : Server) : Except Fault Server := do
  let r ← httpdStateReset { v with
    globals := { v.globals with
      postDone := true
      netBootFileXferSize := v.globals.uploadTotal
      uploadFailed := failedAtEnd v.globals
      smallFileFlag := false } }
  let page := fsPage fs (if failedAtEnd v.globals then fs.failHtml else fs.flashingHtml)
  pure { r with globals := servePage r.globals page }

/-- `uip_newdata ()` outside `STATE_NONE`. -/
def handleBody (fs : Fs) (v : Server) (e : Event) : Except Fault (Server × Out) :=
  if v.globals.state = .uploadRequest then
    if !v.globals.smallFileFlag && !v.globals.dataStartFound then do
      let r ← httpdFindandstoreFirstchunk v e
      if r.2.1 then
        pure ({ r.1 with globals := { r.1.globals with dataStartFound := true } },
          { stores := r.2.2 })
      else do
        let v ← httpdStateReset r.1
        pure (v, { reply := .abort, stores := r.2.2 })
    else do
      let stores := if v.globals.uploadFailed then [] else [(v.globals.dataPointer, e.seg.length)]
      let v' := { v with globals := storeBody v.globals e }
      let complete ← bodyComplete v'
      if complete then do
        let v'' ← finishUpload fs v'
        pure (v'', { send := some (chunk v''.globals e.mss), stores := stores })
      else pure (v', { stores := stores })
  else pure (v, {})

/-- `httpd_appcall`. -/
def httpdAppcall (A : Allocator Addr) (fs : Fs) (v : Server) (e : Event) :
    Except Fault (Server × Out) :=
  if e.lport = 80 then
    if e.flags.close then do
      let v ← httpdStateReset v
      pure (v, { reply := .close })
    else if e.flags.abort || e.flags.timedout then resetAbort v
    else if e.flags.poll then
      if 100 ≤ v.globals.count then resetAbort v
      else pure ({ v with globals := { v.globals with count := v.globals.count + 1 } }, {})
    else if e.flags.connected then do
      let v ← httpdStateReset v
      pure (v, {})
    else if e.flags.newdata && v.globals.state = .none then handleRequest A fs v e
    else if e.flags.ackdata then handleAcked v e
    else if e.flags.rexmit then handleRexmit v e
    else if e.flags.newdata then handleBody fs v e
    else pure (v, {})
  else pure (v, { reply := .abort })

/-! ### The text behind the pointer -/

/-- The text `boundary_value` points to. -/
def Server.text (v : Server) : Option (List UInt8) := v.boundaryValue.bind fun p => v.heap.lookup p

/-- The server with the text in the place of the pointer. -/
def Server.view (v : Server) : State := { v.globals with boundaryValue := v.text }

/-- `boundary_value` points to the one live block there is, or is `NULL` and there is none. -/
def Server.Owns (v : Server) : Prop := Owned v.heap v.boundaryValue.toList

/-- The call succeeds and does what `q` says, and the boundary stays owned. -/
def Refines (r : Except Fault (Server × Out)) (q : State × Out) : Prop :=
  ∃ v, r = .ok (v, q.2) ∧ v.view = q.1 ∧ v.Owns

theorem ok_bind {φ α β : Type} (a : α) (f : α → Except φ β) : (Except.ok a >>= f) = f a := rfl

theorem with_boundaryValue_eq {s : State} {t : Option (List UInt8)} (h : s.boundaryValue = t) :
    { s with boundaryValue := t } = s := by
  subst h
  rfl

theorem text_of_owns {v : Server} {p : Addr} (h : v.Owns) (hp : v.boundaryValue = some p) :
    ∃ bv, v.text = some bv ∧ load v.heap (some p) = .ok bv := by
  have hmem : p ∈ v.boundaryValue.toList := by
    rw [hp]
    exact List.mem_singleton_self p
  obtain ⟨bv, hlookup, hload⟩ := Owned.load h hmem
  refine ⟨bv, ?_, hload⟩
  rw [Server.text, hp]
  exact hlookup

/-- An owned boundary is there exactly when the pointer is not `NULL`. -/
theorem isSome_text {v : Server} (h : v.Owns) : v.text.isSome = v.boundaryValue.isSome := by
  rcases hp : v.boundaryValue with _ | p
  · rw [Server.text, hp]
    rfl
  · obtain ⟨bv, htext, -⟩ := text_of_owns h hp
    rw [htext]
    rfl

/-! ### What the functions do -/

section Functions

variable {fs : Fs} {v : Server} {e : Event}

/-- Only what stands beside the boundary changes. -/
theorem refines_globals (h : v.Owns) {g s : State} (o : Out)
    (hs : { g with boundaryValue := v.text } = s) : Refines (pure ({ v with globals := g }, o)) (s, o) :=
  ⟨{ v with globals := g }, rfl, hs, h⟩

/-- **The reset frees the boundary**, if there is one. -/
theorem httpdStateReset_eq (h : v.Owns) :
    ∃ heap, httpdStateReset v = .ok ⟨Httpd.httpdStateReset v.globals, none, heap⟩ ∧
      Owned heap [] := by
  obtain ⟨g, p, heap⟩ := v
  cases p with
  | none => exact ⟨heap, rfl, h⟩
  | some p =>
    obtain ⟨heap', hfree, howned⟩ := Owned.free h
    refine ⟨heap', ?_, howned⟩
    simp only [httpdStateReset, hfree]
    rfl

theorem refines_reset (h : v.Owns) (o : Out) :
    Refines (do let v ← httpdStateReset v; pure (v, o)) (Httpd.httpdStateReset v.view, o) := by
  obtain ⟨heap, hreset, howned⟩ := httpdStateReset_eq h
  rw [hreset]
  exact ⟨⟨Httpd.httpdStateReset v.globals, none, heap⟩, rfl, rfl, howned⟩

theorem resetAbort_refines (h : v.Owns) : Refines (resetAbort v) (Httpd.resetAbort v.view) :=
  refines_reset h _

/-- The search for the first chunk follows the pointer only if it is not `NULL`. -/
theorem firstchunk_eq (h : v.Owns) (e : Event) :
    ∃ g, httpdFindandstoreFirstchunk v e =
        .ok ({ v with globals := g }, (Httpd.httpdFindandstoreFirstchunk v.view e).2) ∧
      { g with boundaryValue := v.text } = (Httpd.httpdFindandstoreFirstchunk v.view e).1 := by
  rcases hp : v.boundaryValue with _ | p
  · have htext : v.text = none := by
      rw [Server.text, hp]
      rfl
    have hview : Httpd.httpdFindandstoreFirstchunk v.view e = (v.view, false, []) := by
      rw [Httpd.httpdFindandstoreFirstchunk, Server.view, htext]
    refine ⟨v.globals, ?_, ?_⟩
    · simp only [httpdFindandstoreFirstchunk, hp]
      rw [hview]
      rw [← hp]
      rfl
    · rw [hview]
      rfl
  · obtain ⟨bv, htext, hload⟩ := text_of_owns h hp
    have hview : { v.globals with boundaryValue := some bv } = v.view := by
      rw [Server.view, htext]
    refine ⟨(Httpd.httpdFindandstoreFirstchunk v.view e).1, ?_, ?_⟩
    · simp only [httpdFindandstoreFirstchunk, hp, hload]
      rw [← hview, ← hp]
      rfl
    · exact with_boundaryValue_eq (Httpd.firstchunk_boundaryValue v.view e)

theorem handleGet_refines (h : v.Owns) : Refines (handleGet fs v e) (Httpd.handleGet fs v.view e) := by
  rw [handleGet, Httpd.handleGet]
  rcases requestName e.appdata with _ | name
  · exact resetAbort_refines h
  · exact refines_globals h _ rfl

/-- A `POST` is only taken while there is no boundary that its allocation could lose. -/
theorem handlePost_refines {A : Allocator Addr} (h : v.Owns) (hnull : v.boundaryValue = none) :
    Refines (handlePost A v e) (Httpd.handlePost v.view e) := by
  have hempty : Owned v.heap [] := by
    rw [Server.Owns, hnull] at h
    exact h
  rw [handlePost, Httpd.handlePost]
  rcases contentLength e.appdataZ with _ | n
  · exact resetAbort_refines h
  rcases boundary e.appdataZ with _ | bv
  · exact resetAbort_refines (v := { v with globals := _ }) h
  rcases e.malloc with _ | _
  · -- no room: the pointer is `NULL` when the state is reset
    exact resetAbort_refines (v := ⟨_, none, v.heap⟩) hempty
  · obtain ⟨p, heap, hmalloc, hlookup, howned⟩ := Owned.malloc hempty A bv
    obtain ⟨g, hfirst, hg⟩ :=
      firstchunk_eq (v := ⟨beginUpload v.globals n bv, some p, heap⟩) howned e
    have hview : (Server.mk (beginUpload v.globals n bv) (some p) heap).view =
        beginUpload v.view n bv := by
      rw [Server.view, Server.text]
      simp only [Option.bind_some, hlookup]
      rfl
    rw [hview] at hfirst hg
    have hfound := congrArg (fun s : State => { s with
      dataStartFound := (Httpd.httpdFindandstoreFirstchunk (beginUpload v.view n bv) e).2.1 }) hg
    simp only [hmalloc, hfirst, if_true]
    exact ⟨_, rfl, hfound, howned⟩

theorem handleRequest_refines {A : Allocator Addr} (h : v.Owns) (hnull : v.boundaryValue = none) :
    Refines (handleRequest A fs v e) (Httpd.handleRequest fs v.view e) := by
  rw [handleRequest, Httpd.handleRequest]
  by_cases hget : isGet e.appdata = true
  · rw [if_pos hget, if_pos hget]
    exact handleGet_refines h
  rw [if_neg hget, if_neg hget]
  by_cases hpost : isPost e.appdata = true
  · rw [if_pos hpost, if_pos hpost]
    exact handlePost_refines h hnull
  · rw [if_neg hpost, if_neg hpost]
    exact resetAbort_refines h

theorem commit_with (s : State) (t : Option (List UInt8)) :
    { commit s with boundaryValue := t } = commit { s with boundaryValue := t } := by
  rcases hd : s.postDone with _ | _
  · simp only [commit, hd, Bool.false_eq_true, if_false]
  · simp only [commit, hd, if_true]

theorem storeBody_with (s : State) (e : Event) (t : Option (List UInt8)) :
    { storeBody s e with boundaryValue := t } = storeBody { s with boundaryValue := t } e := by
  rcases hf : s.uploadFailed with _ | _
  · simp only [storeBody, hf, Bool.false_eq_true, if_false]
  · simp only [storeBody, hf, if_true]

theorem handleAcked_refines (h : v.Owns) : Refines (handleAcked v e) (Httpd.handleAcked v.view e) := by
  have hstate : v.view.state = v.globals.state := rfl
  have hupload : v.view.upload = v.globals.upload := rfl
  rw [handleAcked, Httpd.handleAcked, hstate, hupload]
  by_cases hs : v.globals.state = .fileRequest
  swap
  · rw [if_neg hs, if_neg hs]
    exact refines_globals h _ rfl
  rw [if_pos hs, if_pos hs]
  by_cases hm : v.globals.upload ≤ e.mss
  · rw [if_pos hm, if_pos hm]
    have hcommit : commit v.view = (Server.view { v with globals := commit v.globals }) :=
      (commit_with v.globals v.text).symm
    rw [hcommit]
    exact refines_reset (v := { v with globals := commit v.globals }) h _
  · rw [if_neg hm, if_neg hm]
    exact refines_globals h _ rfl

theorem handleRexmit_refines (h : v.Owns) :
    Refines (handleRexmit v e) (Httpd.handleRexmit v.view e) := by
  have hstate : v.view.state = v.globals.state := rfl
  rw [handleRexmit, Httpd.handleRexmit, hstate]
  by_cases hs : v.globals.state = .fileRequest
  · rw [if_pos hs, if_pos hs]
    exact refines_globals h _ rfl
  · rw [if_neg hs, if_neg hs]
    exact refines_globals h _ rfl

/-- `strlen (boundary_value)` is taken of the boundary when there is one. -/
theorem bodyComplete_eq (h : v.Owns) {p : Addr} (hp : v.boundaryValue = some p) :
    bodyComplete v = .ok (Httpd.bodyComplete v.view) := by
  obtain ⟨bv, htext, hload⟩ := text_of_owns h hp
  rw [bodyComplete, hp, hload, Server.view, htext]
  rfl

theorem finishUpload_eq (h : v.Owns) :
    ∃ v', finishUpload fs v = .ok v' ∧ v'.view = Httpd.finishUpload fs v.view ∧
      chunk v'.globals = chunk (Httpd.finishUpload fs v.view) ∧ v'.Owns := by
  obtain ⟨heap, hreset, howned⟩ := httpdStateReset_eq (v := { v with
    globals := { v.globals with
      postDone := true
      netBootFileXferSize := v.globals.uploadTotal
      uploadFailed := failedAtEnd v.globals
      smallFileFlag := false } }) h
  rw [finishUpload, hreset]
  exact ⟨_, rfl, rfl, rfl, howned⟩

/-- New data of an upload: the state says that there is a boundary. -/
theorem handleBody_refines (h : v.Owns)
    (hthere : v.globals.state = .uploadRequest → ∃ p, v.boundaryValue = some p) :
    Refines (handleBody fs v e) (Httpd.handleBody fs v.view e) := by
  have hstate : v.view.state = v.globals.state := rfl
  have hflags : (!v.view.smallFileFlag && !v.view.dataStartFound) =
      (!v.globals.smallFileFlag && !v.globals.dataStartFound) := rfl
  rw [handleBody, Httpd.handleBody, hstate, hflags]
  by_cases hs : v.globals.state = .uploadRequest
  swap
  · rw [if_neg hs, if_neg hs]
    exact refines_globals h _ rfl
  rw [if_pos hs, if_pos hs]
  obtain ⟨p, hp⟩ := hthere hs
  by_cases hf : (!v.globals.smallFileFlag && !v.globals.dataStartFound) = true
  · -- the first chunk is still looked for
    rw [if_pos hf, if_pos hf]
    obtain ⟨g, hfirst, hg⟩ := firstchunk_eq h e
    rw [hfirst, ok_bind]
    by_cases hfound : (Httpd.httpdFindandstoreFirstchunk v.view e).2.1 = true
    · simp only [hfound, if_true]
      exact refines_globals h _ (congrArg (fun s : State => { s with dataStartFound := true }) hg)
    · simp only [hfound]
      rw [← hg]
      exact refines_reset (v := { v with globals := g }) h _
  · rw [if_neg hf, if_neg hf]
    have hstore : Server.view { v with globals := storeBody v.globals e } = storeBody v.view e :=
      storeBody_with v.globals e v.text
    have hcomplete := bodyComplete_eq (v := { v with globals := storeBody v.globals e }) h hp
    rw [hstore] at hcomplete
    simp only [hcomplete, ok_bind]
    by_cases hc : Httpd.bodyComplete (storeBody v.view e) = true
    · obtain ⟨v', hfinish, hview, hchunk, howned⟩ :=
        @finishUpload_eq fs { v with globals := storeBody v.globals e } h
      rw [hstore] at hview hchunk
      simp only [hc, if_true, hfinish]
      refine ⟨v', ?_, hview, howned⟩
      rw [← hchunk]
      rfl
    · simp only [hc]
      exact refines_globals h _ hstore

/-- In a well-formed state the pointer is `NULL` outside uploads and only there. -/
theorem boundaryValue_isSome_iff (h : v.Owns) (hw : Wf v.view) :
    v.boundaryValue.isSome = true ↔ v.globals.state = .uploadRequest := by
  rw [← isSome_text h]
  exact hw.boundary_iff

/-- The branches of `httpdAppcall`. -/
def branches (A : Allocator Addr) (fs : Fs) (v : Server) (e : Event) :
    Branches (Except Fault (Server × Out)) where
  foreign := pure (v, { reply := .abort })
  closed := do
    let v ← httpdStateReset v
    pure (v, { reply := .close })
  aborted := resetAbort v
  givenUp := resetAbort v
  tick := pure ({ v with globals := { v.globals with count := v.globals.count + 1 } }, {})
  connected := do
    let v ← httpdStateReset v
    pure (v, {})
  request := handleRequest A fs v e
  acked := handleAcked v e
  rexmit := handleRexmit v e
  body := handleBody fs v e
  idle := pure (v, {})

theorem httpdAppcall_eq (A : Allocator Addr) (fs : Fs) (v : Server) (e : Event) :
    httpdAppcall A fs v e = (branches A fs v e).select e v.globals.state v.globals.count := rfl

/-- **One call** succeeds and does what `httpdAppcall` does, and the boundary stays owned. -/
theorem appcall_refines (A : Allocator Addr) (fs : Fs) (h : v.Owns) (hw : Wf v.view) :
    Refines (httpdAppcall A fs v e) (Httpd.httpdAppcall fs v.view e) := by
  have hsome := boundaryValue_isSome_iff h hw
  have hstate : v.view.state = v.globals.state := rfl
  have hcount : v.view.count = v.globals.count := rfl
  rw [httpdAppcall_eq, Httpd.httpdAppcall_eq, hstate, hcount]
  refine Branches.select_lockstep Refines (fun _ => Iff.rfl) (fun _ => refines_globals h _ rfl)
    (fun _ => refines_reset h _) (fun _ => resetAbort_refines h) (fun _ => resetAbort_refines h)
    (fun _ _ => refines_globals h _ rfl) (fun _ => refines_reset h _) (fun _ _ hs => ?_)
    (fun _ _ => handleAcked_refines h) (fun _ _ => handleRexmit_refines h)
    (fun _ _ _ _ => ?_) (fun _ _ => refines_globals h _ rfl)
  · -- a request finds `NULL`
    refine handleRequest_refines h (Option.not_isSome_iff_eq_none.mp fun hp => ?_)
    rw [hsome, hs] at hp
    exact absurd hp (by simp)
  · -- a piece of an upload finds a boundary
    exact handleBody_refines h fun hs => Option.isSome_iff_exists.mp (hsome.mpr hs)

end Functions

/-! ### Runs -/

/-- The server and its view, both in order. -/
structure Represents (s : State) (v : Server) : Prop where
  view_eq : v.view = s
  owns : v.Owns
  wf : Wf s

theorem represents_initial (ram : Ram) : Represents (Httpd.initial ram) (initial ram) where
  view_eq := rfl
  owns := owned_empty
  wf := wf_initial ram

/-- **Every run** succeeds and answers as the server without pointers does. -/
theorem tryRun_appcall (A : Allocator Addr) (fs : Fs) {s : State} {v : Server} (es : List Event)
    (h : Represents s v) :
    ∃ v', Run.tryRun (httpdAppcall A fs) v es = .ok (v', Run.outputs (Httpd.httpdAppcall fs) s es) ∧
      Represents (serve fs s es) v' := by
  refine Run.tryRun_of_refinement (fun s v e hr => ?_) es h
  obtain ⟨rfl, howns, hwf⟩ := hr
  obtain ⟨v', hok, hview, howns'⟩ := appcall_refines (e := e) A fs howns hwf
  exact ⟨v', hok, hview, howns', wf_step fs e hwf⟩

/-- A boundary that is owned is the only live block. -/
theorem keys_of_owns {v : Server} (h : v.Owns) : v.heap.keys = v.boundaryValue.toList := by
  rw [Server.Owns, Owned] at h
  rcases hp : v.boundaryValue with _ | p
  · rw [hp] at h
    exact h.eq_nil
  · rw [hp] at h
    exact List.perm_singleton.mp h

/-- **The upload state** after every sequence of calls from the initial globals: no call has
followed `NULL` or a pointer to a freed block or freed a block twice, the boundary is there
exactly during an upload and is the only live block, and the data go on where they should. -/
theorem upload_representation (A : Allocator Addr) (fs : Fs) (ram : Ram) (es : List Event) :
    ∃ v outs, Run.tryRun (httpdAppcall A fs) (initial ram) es = .ok (v, outs) ∧
      (v.boundaryValue.isSome = true ↔ v.globals.state = .uploadRequest) ∧
      (v.globals.dataStartFound = true → v.globals.state = .uploadRequest) ∧
      (v.globals.dataStartFound = true → v.globals.uploadFailed = false →
        v.globals.dataPointer = (loadaddr + v.globals.upload) % 2 ^ 32) ∧
      v.heap.keys = v.boundaryValue.toList := by
  obtain ⟨v, hrun, hview, howns, hwf⟩ := tryRun_appcall A fs es (represents_initial ram)
  rw [← hview] at hwf
  refine ⟨v, _, hrun, boundaryValue_isSome_iff howns hwf, hwf.found, ?_, keys_of_owns howns⟩
  intro hfound hok
  exact hwf.pointer (hwf.found hfound) hok

end Httpd.Pointer
