import Greenlight.Plugin.Stage

/-!
# Delivery of requests

A stream is handed a copy of the table when it attaches and follows the broadcast channel from then on, under one
lock, so what it yields is the beginning of one list: the requests that were outstanding then, in some order, and
the requests sent since.  It has yielded all of the list when the next call would wait (`stage_delivery`).
-/

namespace Greenlight.Stager

open Greenlight.Lib Greenlight.Plugin

def Attached.Failed (a : Attached) : Prop := ∃ e, .error e ∈ a.results

/-- The stream was handed the list `initial` when the channel had got `start` requests.  Until its first error it
follows the channel; what it yielded before the error stays the beginning of what there was to yield. -/
inductive Served (notify : Broadcast Request) (initial : List Request) (start : ℕ) (a : Attached) : Prop
  | follows (given : List Request) (hresults : a.results = given.map .ok)
      (h : notify.Follows initial start given a.stream.backlog a.stream.bcast)
  | failed (given : List Request) (e : StageError) (later : List (Except StageError Request))
      (hresults : a.results = given.map .ok ++ .error e :: later) (hstart : start ≤ notify.sent.length)
      (h : given <+: initial ++ notify.sent.drop start)

section

variable {notify : Broadcast Request} {initial : List Request} {start : ℕ} {a : Attached}

/-! ### One stream -/

theorem served_send (h : Served notify initial start a) (r : Request) : Served (notify.send r) initial start a := by
  cases h with
  | follows given hresults h => exact .follows given hresults (h.send r)
  | failed given e later hresults hstart h =>
    refine .failed given e later hresults ?_ ?_
    · simp only [Broadcast.send, List.length_append]
      omega
    · rw [Broadcast.send, List.drop_append_of_le_length hstart, ← List.append_assoc]
      exact h.trans (List.prefix_append _ _)

theorem served_next (h : Served notify initial start a) {result : Except StageError Request}
    {stream : StageStream} (hnext : a.stream.next notify = .ready result stream) :
    Served notify initial start ⟨stream, a.results ++ [result]⟩ := by
  cases h with
  | failed given e later hresults hstart h =>
    refine .failed given e (later ++ [result]) ?_ hstart h
    simp [hresults]
  | follows given hresults h =>
    unfold StageStream.next at hnext
    split at hnext
    · rename_i req backlog hbacklog
      obtain ⟨rfl, rfl⟩ := StageStream.Next.ready.inj hnext
      rw [hbacklog] at h
      exact .follows (given ++ [req]) (by simp [hresults]) h.pop
    · rename_i hbacklog
      rw [hbacklog] at h
      split at hnext
      · rename_i r bcast hrecv
        obtain ⟨rfl, rfl⟩ := StageStream.Next.ready.inj hnext
        refine .follows (given ++ [r]) (by simp [hresults]) ?_
        rw [hbacklog]
        exact h.recv hrecv
      · obtain ⟨rfl, rfl⟩ := StageStream.Next.ready.inj hnext
        -- an error of the channel ends what is followed
        exact .failed given _ [] (by rw [hresults]) h.start_le h.isPrefix
      · cases hnext

theorem yielded_of_ok (given : List Request) (results : List (Except StageError Request))
    (hresults : a.results = given.map .ok ++ results) (hfirst : ∀ r ∈ results.head?, r.toOption = none) :
    a.yielded = given.map (·.request) := by
  unfold Attached.yielded
  rw [hresults]
  clear hresults
  induction given with
  | nil =>
    cases results with
    | nil => rfl
    | cons result results => simp [hfirst result rfl]
  | cons r given ih => simpa [Except.toOption] using ih

theorem Served.yielded_isPrefix (h : Served notify initial start a) :
    a.yielded <+: (initial ++ notify.sent.drop start).map (·.request) := by
  cases h with
  | follows given hresults h =>
    rw [yielded_of_ok given [] (by simpa using hresults) (by simp)]
    exact h.isPrefix.map _
  | failed given e later hresults hstart h =>
    rw [yielded_of_ok given _ hresults (by simp [Except.toOption])]
    exact h.map _

theorem Served.yielded_eq (h : Served notify initial start a) (hfailed : ¬ a.Failed)
    (hwaits : a.stream.next notify = .waits) :
    a.yielded = (initial ++ notify.sent.drop start).map (·.request) := by
  cases h with
  | failed given e later hresults hstart h => exact absurd ⟨e, by simp [hresults]⟩ hfailed
  | follows given hresults h =>
    unfold StageStream.next at hwaits
    split at hwaits
    · cases hwaits
    · rename_i hbacklog
      split at hwaits
      · cases hwaits
      · cases hwaits
      · rename_i hrecv
        rw [hbacklog] at h
        rw [yielded_of_ok given [] (by simpa using hresults) (by simp), h.eq_of_waits hrecv]

end

/-! ### Runs -/

variable {capacity : ℕ} {es pre post : List StageEvent} {e : StageEvent} {w₀ w w' : World}
  {initial : List Request} {start i : ℕ} {order : List UInt32}

theorem served_step (h : ∃ a, w.streams[i]? = some a ∧ Served w.stage.notify initial start a)
    (hstep : step w e = some w') : ∃ a, w'.streams[i]? = some a ∧ Served w'.stage.notify initial start a := by
  obtain ⟨a, ha, hserved⟩ := h
  cases step_outcome hstep with
  | sent request => exact ⟨a, ha, served_send hserved _⟩
  | attached order hperm =>
    refine ⟨a, ?_, hserved⟩
    exact List.getElem?_append_left (List.getElem?_eq_some_iff.1 ha).1 ▸ ha
  | ready j b result stream hb hnext =>
    by_cases hij : j = i
    · subst hij
      obtain rfl := Option.some.inj (ha.symm.trans hb)
      refine ⟨_, ?_, served_next hserved hnext⟩
      rw [List.getElem?_set_self (List.getElem?_eq_some_iff.1 ha).1]
    · exact ⟨a, by rw [List.getElem?_set_ne hij, ha], hserved⟩
  | unknown | responded | refused | received | closed => exact ⟨a, ha, hserved⟩

/-- The backlog of a new stream: the table in the order in which the ids come out. -/
def backlogOf (w : World) (order : List UInt32) : List Request := order.filterMap fun id => w.stage.requests[id]?

theorem served_of_run (hr : Run step w₀ (.mystream order :: post) w) :
    ∃ a, w.streams[w₀.streams.length]? = some a ∧
      Served w.stage.notify (backlogOf w₀ order) w₀.stage.notify.sent.length a := by
  obtain ⟨w₁, hattach, hr⟩ := run_cons.1 hr
  have hstart : ∃ a, w₁.streams[w₀.streams.length]? = some a ∧
      Served w₁.stage.notify (backlogOf w₀ order) w₀.stage.notify.sent.length a := by
    cases step_outcome hattach with
    | attached order hperm =>
      refine ⟨_, List.getElem?_concat_length, .follows [] rfl ?_⟩
      exact Broadcast.follows_subscribe _ _
  refine Run.induction (motive := fun _ w => ∃ a, w.streams[w₀.streams.length]? = some a ∧
    Served w.stage.notify (backlogOf w₀ order) w₀.stage.notify.sent.length a) hr hstart ?_
  exact fun _ t e u _ ih hstep => served_step ih hstep

theorem mem_backlogOf (hinv : Inv pre w₀) (hperm : order.Perm w₀.stage.requests.keys) {r : HsmRequest} :
    r ∈ (backlogOf w₀ order).map (·.request) ↔ Outstanding pre r := by
  simp only [backlogOf, List.mem_map, List.mem_filterMap, hinv.table]
  constructor
  · rintro ⟨q, ⟨id, -, -, hout⟩, rfl⟩
    exact ⟨q.response, hout⟩
  · rintro ⟨c, hout⟩
    refine ⟨⟨r, c⟩, ⟨r.requestId, ?_, rfl, hout⟩, rfl⟩
    have hget : w₀.stage.requests[r.requestId]? = some ⟨r, c⟩ := (hinv.table _ _).2 ⟨rfl, hout⟩
    rw [hperm.mem_iff, Std.ExtTreeMap.mem_keys, Std.ExtTreeMap.mem_iff_isSome_getElem?, hget]
    rfl

theorem requestIds_backlogOf (hinv : Inv pre w₀) (hperm : order.Perm w₀.stage.requests.keys) :
    (backlogOf w₀ order).map (·.request.requestId) = order := by
  have hmem : ∀ id ∈ order, ∃ q, w₀.stage.requests[id]? = some q ∧ q.request.requestId = id := by
    intro id hid
    rw [hperm.mem_iff, Std.ExtTreeMap.mem_keys, Std.ExtTreeMap.mem_iff_isSome_getElem?,
      Option.isSome_iff_exists] at hid
    obtain ⟨q, hq⟩ := hid
    exact ⟨q, hq, ((hinv.table _ _).1 hq).1⟩
  unfold backlogOf
  clear hperm
  induction order with
  | nil => rfl
  | cons id order ih =>
    obtain ⟨q, hq, hid⟩ := hmem id List.mem_cons_self
    rw [List.filterMap_cons_some hq, List.map_cons, hid, ih fun id' h => hmem id' (List.mem_cons_of_mem _ h)]

theorem map_drop_sent (hinv₀ : Inv pre w₀) (hinv : Inv (pre ++ .mystream order :: post) w) :
    (w.stage.notify.sent.drop w₀.stage.notify.sent.length).map (·.request) = sentRequests post := by
  have hlen : w₀.stage.notify.sent.length = (sentRequests pre).length := by rw [← hinv₀.log, List.length_map]
  have hsplit : sentRequests (pre ++ .mystream order :: post) = sentRequests pre ++ sentRequests post :=
    sentRequests_append pre _
  rw [List.map_drop, hinv.log, hlen, hsplit, List.drop_left]

/-- **Delivery**, in a run in which a stream attaches after the events `pre` and `post` follow, the ids of all
requests being distinct: what the stream has yielded before its first error is, without repetition, among the
requests outstanding when it attached and those sent after that, and it is all of them when another call of `next`
would wait. -/
theorem stage_delivery (hids : DistinctIds (pre ++ .mystream order :: post))
    (hpre : Run step (World.new capacity) pre w₀) (hpost : Run step w₀ (.mystream order :: post) w) :
    ∃ a, w.streams[w₀.streams.length]? = some a ∧
      (a.yielded.map (·.requestId)).Nodup ∧
      (∀ r ∈ a.yielded, Outstanding pre r ∨ r ∈ sentRequests post) ∧
      (¬ a.Failed → a.stream.next w.stage.notify = .waits →
        ∀ r, r ∈ a.yielded ↔ Outstanding pre r ∨ r ∈ sentRequests post) := by
  obtain ⟨a, ha, hserved⟩ := served_of_run hpost
  have hinv₀ := inv_of_run hids.of_append hpre
  have hinv := inv_of_run hids (run_append.2 ⟨w₀, hpre, hpost⟩)
  have hperm : order.Perm w₀.stage.requests.keys := by
    obtain ⟨w₁, hattach, -⟩ := run_cons.1 hpost
    cases step_outcome hattach with
    | attached order hperm => exact hperm
  -- the stream yields the backlog and then what is sent, of which no id occurs twice
  have hall : (backlogOf w₀ order ++ w.stage.notify.sent.drop w₀.stage.notify.sent.length).map (·.request) =
      (backlogOf w₀ order).map (·.request) ++ sentRequests post := by
    rw [List.map_append, map_drop_sent hinv₀ hinv]
  have hmem : ∀ r, r ∈ (backlogOf w₀ order).map (·.request) ++ sentRequests post ↔
      Outstanding pre r ∨ r ∈ sentRequests post := fun r => by rw [List.mem_append, mem_backlogOf hinv₀ hperm]
  have hnodup : (((backlogOf w₀ order).map (·.request) ++ sentRequests post).map (·.requestId)).Nodup := by
    unfold DistinctIds at hids
    rw [sentRequests_append, List.map_append, List.nodup_append] at hids
    obtain ⟨-, hpostIds, hdisj⟩ := hids
    rw [List.map_append, List.map_map]
    refine List.nodup_append.2 ⟨?_, hpostIds, ?_⟩
    · have hback : (backlogOf w₀ order).map ((·.requestId) ∘ (·.request)) = order :=
        requestIds_backlogOf hinv₀ hperm
      rw [hback]
      exact hperm.nodup_iff.2 Std.ExtTreeMap.nodup_keys
    · intro id hid id' hid'
      obtain ⟨q, hq, rfl⟩ := List.mem_map.1 hid
      obtain ⟨c, hout⟩ := (mem_backlogOf hinv₀ hperm).1 (List.mem_map_of_mem hq)
      exact hdisj _ (List.mem_map_of_mem hout.mem) id' hid'
  have hbeginning : a.yielded <+: (backlogOf w₀ order).map (·.request) ++ sentRequests post :=
    hall ▸ hserved.yielded_isPrefix
  refine ⟨a, ha, hnodup.sublist (hbeginning.sublist.map _), fun r hr => (hmem r).1 (hbeginning.subset hr), ?_⟩
  intro hfailed hwaits r
  rw [hserved.yielded_eq hfailed hwaits, hall, hmem]

def plainRequest (id : UInt32) : HsmRequest := ⟨id, none, [], [], []⟩

def plainResponse (id : UInt32) : HsmResponse := ⟨id, [], [], ""⟩

/-- A signer attaches, gets one of two requests, and goes. -/
def beforeReattach : List StageEvent :=
  [.send (plainRequest 1), .mystream [1], .next 0, .send (plainRequest 2)]

/-- It attaches again; one request is answered and another one sent while it reads. -/
def afterReattach : List StageEvent :=
  [.next 1, .respond (plainResponse 2), .send (plainRequest 3), .next 1, .next 1]

theorem stage_delivery_reattach : DistinctIds (beforeReattach ++ .mystream [1, 2] :: afterReattach) ∧
    ∃ w₀ w, Run step (World.new 1000) beforeReattach w₀ ∧ Run step w₀ (.mystream [1, 2] :: afterReattach) w ∧
      ∃ a, w.streams[w₀.streams.length]? = some a ∧ a.yielded.map (·.requestId) = [1, 2, 3] ∧
        ∀ r, r ∈ a.yielded ↔ Outstanding beforeReattach r ∨ r ∈ sentRequests afterReattach := by
  have hids : DistinctIds (beforeReattach ++ .mystream [1, 2] :: afterReattach) := by
    unfold DistinctIds
    decide +kernel
  have hruns : ∃ w₀, Run step (World.new 1000) beforeReattach w₀ ∧ w₀.streams.length = 1 ∧
      ∃ w, Run step w₀ (.mystream [1, 2] :: afterReattach) w ∧ ∃ a, w.streams[1]? = some a ∧
        a.yielded.map (·.requestId) = [1, 2, 3] ∧ a.stream.next w.stage.notify = .waits ∧
        ∀ r ∈ a.results, r.toOption.isSome :=
    ⟨_, rfl, rfl, _, rfl, _, rfl, rfl, rfl, by decide +kernel⟩
  obtain ⟨w₀, hpre, hlen, w, hpost, a, ha, hyielded, hwaits, hok⟩ := hruns
  obtain ⟨a', ha', -, -, hall⟩ := stage_delivery hids hpre hpost
  obtain rfl : a = a' := Option.some.inj (ha.symm.trans (hlen ▸ ha'))
  refine ⟨hids, w₀, w, hpre, hpost, a, ha', hyielded, hall ?_ hwaits⟩
  rintro ⟨e, he⟩
  exact absurd (hok _ he) (by simp [Except.toOption])
end Greenlight.Stager
