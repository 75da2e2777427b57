import PairCell.Session.Wired

/-!
# Replies meet their requests

A reply carries nothing that names its request, so the Worker takes the next one
for the one it waits for.  That is right as long as no wait is broken off: then
each session has one request or its reply under way at most.
-/

namespace PairCell

open Lib

section Frames

variable {α β : Type}

def Upward.request? : Upward α β → Option SessionRequest
  | .request r => some r
  | _ => none

def DirectReply.reply? : DirectReply → Option SessionReply
  | .reply x => some x
  | .pairRelayAck _ => none

def Downward.reply? : Downward α β → Option SessionReply
  | .direct d => d.reply?
  | .pushed _ => none

end Frames

namespace WorkerSessionConnection

variable {α β : Type} (k : WorkerSessionConnection α β)

def requests : List SessionRequest := k.up.filterMap Upward.request?

def replies : List SessionReply :=
  k.down.filterMap Downward.reply? ++ (k.owed.bind DirectReply.reply?).toList

theorem replies_cons {m : Downward α β} {rest : List (Downward α β)}
    (h : k.down = m :: rest) :
    k.replies = m.reply?.toList ++ { k with down := rest }.replies := by
  cases hm : m.reply? <;> simp [replies, h, hm]

theorem send_other {f : Upward α β} (hf : f.request? = none) :
    (k.send f).requests = k.requests ∧ (k.send f).replies = k.replies := by
  unfold send
  split
  · simp [requests, replies, hf]
  · exact ⟨rfl, rfl⟩

theorem send_request (r : SessionRequest) :
    (k.send (.request r)).requests.Sublist (k.requests ++ [r]) ∧
      (k.send (.request r)).replies = k.replies := by
  unfold send
  split
  · exact ⟨by simp [requests, Upward.request?], rfl⟩
  · exact ⟨List.sublist_append_left _ _, rfl⟩

theorem answer_replies {k : WorkerSessionConnection α β} {d : DirectReply}
    (h : k.owed = some d) :
    { k.transmit (.direct d) with owed := none }.requests = k.requests ∧
      { k.transmit (.direct d) with owed := none }.replies.Sublist k.replies := by
  unfold transmit
  split
  · refine ⟨rfl, ?_⟩
    cases hd : d.reply? <;> simp [replies, h, Downward.reply?, hd]
  · exact ⟨rfl, (List.Sublist.refl _).append (List.nil_sublist _)⟩

theorem write_replies (m : Pushed α β) (rest : List (Pushed α β)) :
    { k.transmit (.pushed m) with outbound := rest }.requests = k.requests ∧
      { k.transmit (.pushed m) with outbound := rest }.replies = k.replies := by
  unfold transmit
  split
  · exact ⟨rfl, by simp [replies, Downward.reply?]⟩
  · exact ⟨rfl, rfl⟩

end WorkerSessionConnection

namespace WorkerProcess

variable {α β : Type} (p : WorkerProcess α β)

def awaits : Option SessionRequest := p.session.bind fun a => a.awaiting

/-- What is under way on the connection of a Worker is what it waits for. -/
structure Prompt (k : WorkerSessionConnection α β) : Prop where
  one : k.requests.length + k.replies.length ≤ 1
  request : ∀ r ∈ k.requests, p.awaits = some r
  reply : ∀ x ∈ k.replies, (∃ r, p.awaits = some r ∧ r.accepts x = true) ∨
    p.session = none ∧ ∃ cursor, x = .authenticated cursor

/-- Every reply so far was that of the request it was taken for. -/
structure Answered : Prop where
  stray : p.stray = []
  replies : ∀ r x, (r, x) ∈ p.replies → r.accepts x = true

variable {p} {k k' : WorkerSessionConnection α β}

theorem Prompt.shrink (h : p.Prompt k) (hrequests : k'.requests.Sublist k.requests)
    (hreplies : k'.replies.Sublist k.replies) : p.Prompt k' where
  one := Nat.le_trans (Nat.add_le_add hrequests.length_le hreplies.length_le) h.one
  request r hr := h.request r (hrequests.subset hr)
  reply x hx := h.reply x (hreplies.subset hx)

theorem Prompt.of_nil (hrequests : k.requests = [])
    (hreplies : k.replies = []) : p.Prompt k := by
  refine ⟨by simp [hrequests, hreplies], fun r hr => ?_, fun x hx => ?_⟩
  · rw [hrequests] at hr
    cases hr
  · rw [hreplies] at hx
    cases hx

theorem Prompt.of_empty (h : k.Empty) : p.Prompt k :=
  .of_nil (by simp [WorkerSessionConnection.requests, h.up])
    (by simp [WorkerSessionConnection.replies, h.down, h.owed])

/-- The first frame of a connection tells the Worker that it is registered. -/
theorem Prompt.authenticated {cursor : Nat} (h : k.Empty) (hsession : p.session = none) :
    p.Prompt { k with stage := .serving,
                      owed := some (.reply (.authenticated cursor)) } := by
  refine ⟨?_, fun r hr => ?_, fun x hx => .inr ⟨hsession, cursor, ?_⟩⟩
  · simp [WorkerSessionConnection.requests, WorkerSessionConnection.replies, h.up, h.down,
      DirectReply.reply?]
  · simp [WorkerSessionConnection.requests, h.up] at hr
  · simpa [WorkerSessionConnection.replies, h.down, DirectReply.reply?] using hx

/-- A session that waits for nothing has nothing under way. -/
theorem Prompt.idle {a : AuthenticatedWorkerSession α β} (h : p.Prompt k)
    (ha : p.session = some a) (hidle : a.awaiting = none) : k.requests = [] ∧
    k.replies = [] := by
  have hawaits : p.awaits = none := by simp [awaits, ha, hidle]
  refine ⟨List.eq_nil_iff_forall_not_mem.2 fun r hr => ?_,
    List.eq_nil_iff_forall_not_mem.2 fun x hx => ?_⟩
  · cases hawaits.symm.trans (h.request r hr)
  · obtain ⟨r, hr, -⟩ | ⟨hnone, -⟩ := h.reply x hx
    · cases hawaits.symm.trans hr
    · cases ha.symm.trans hnone

/-- The process waits for the same as before. -/
theorem Prompt.same {p' : WorkerProcess α β} (h : p.Prompt k)
    (hawaits : p'.awaits = p.awaits) (hsession : p.session = none → p'.session = none) :
    p'.Prompt k where
  one := h.one
  request r hr := hawaits.trans (h.request r hr)
  reply x hx := by
    obtain ⟨r, hr, hx⟩ | ⟨hnone, hx⟩ := h.reply x hx
    · exact .inl ⟨r, hawaits.trans hr, hx⟩
    · exact .inr ⟨hsession hnone, hx⟩

/-- The request is taken up and its reply due. -/
theorem Prompt.answer {r : SessionRequest} {x : SessionReply} {rest : List (Upward α β)}
    (h : p.Prompt k) (hup : k.up = .request r :: rest) (hx : r.accepts x = true) :
    p.Prompt { k with up := rest, owed := some (.reply x) } := by
  have hrequests : k.requests = r :: rest.filterMap Upward.request? := by
    simp [WorkerSessionConnection.requests, hup, Upward.request?]
  have hone := h.one
  rw [hrequests, List.length_cons] at hone
  have hrest : rest.filterMap Upward.request? = [] := List.length_eq_zero_iff.1 (by omega)
  have hdown : k.down.filterMap Downward.reply? = [] := by
    have hnone : k.replies = [] := List.length_eq_zero_iff.1 (by omega)
    exact (List.append_eq_nil_iff.1 hnone).1
  have hawaits := h.request r (hrequests ▸ List.mem_cons_self)
  refine ⟨?_, fun q hq => ?_, fun y hy => ?_⟩
  · simp [WorkerSessionConnection.requests, WorkerSessionConnection.replies, hrest, hdown,
      DirectReply.reply?]
  · simp [WorkerSessionConnection.requests, hrest] at hq
  · obtain rfl : y = x := by
      simpa [WorkerSessionConnection.replies, hdown, DirectReply.reply?] using hy
    exact .inl ⟨r, hawaits, hx⟩

/-- Of a frame that is no reply a session keeps what it waits for. -/
theorem receiveIn_awaits {a : AuthenticatedWorkerSession α β} {m : Downward α β}
    (ha : p.session = some a) (hm : m.reply? = none) :
    (p.receiveIn a m).awaits = p.awaits ∧ (p.receiveIn a m).stray = p.stray ∧
      (p.receiveIn a m).replies = p.replies := by
  have hawaits : p.awaits = a.awaiting := by simp [awaits, ha]
  rw [hawaits]
  cases m with
  | pushed m => cases m <;> exact ⟨rfl, rfl, rfl⟩
  | direct d =>
      cases d with
      | pairRelayAck k => exact ⟨rfl, rfl, rfl⟩
      | reply x => cases hm

/-- A frame is read by a session; what is left is again what it waits for. -/
theorem Prompt.receiveIn {a : AuthenticatedWorkerSession α β} {m : Downward α β}
    {rest : List (Downward α β)} (h : p.Prompt k) (hanswered : p.Answered)
    (ha : p.session = some a) (hdown : k.down = m :: rest) :
    (p.receiveIn a m).Prompt { k with down := rest } ∧ (p.receiveIn a m).Answered := by
  have hreplies := k.replies_cons hdown
  cases hm : m.reply? with
  | none =>
      obtain ⟨hawaits, hstray, htaken⟩ := receiveIn_awaits ha hm
      rw [hm, Option.toList_none, List.nil_append] at hreplies
      have hrest : p.Prompt { k with down := rest } :=
        h.shrink (.refl _) (by rw [hreplies])
      refine ⟨hrest.same hawaits fun hnone => ?_, ⟨?_, ?_⟩⟩
      · cases ha.symm.trans hnone
      · rw [hstray, hanswered.stray]
      · rw [htaken]
        exact hanswered.replies
  | some x =>
      rw [hm, Option.toList_some] at hreplies
      have hone := h.one
      rw [hreplies, List.length_append, List.length_singleton] at hone
      have hrequests : k.requests = [] := List.length_eq_zero_iff.1 (by omega)
      have hrest : { k with down := rest }.replies = [] :=
        List.length_eq_zero_iff.1 (by omega)
      obtain ⟨r, hr, hx⟩ | ⟨hnone, -⟩ := h.reply x (hreplies ▸ List.mem_cons_self)
      · obtain ⟨d, rfl⟩ : ∃ d, m = .direct d := by
          cases m with
          | pushed m => cases hm
          | direct d => exact ⟨d, rfl⟩
        obtain rfl : d = .reply x := by
          cases d with
          | pairRelayAck k => cases hm
          | reply y => exact congrArg _ (Option.some.inj hm)
        have hawaiting : a.awaiting = some r := by simpa [awaits, ha] using hr
        refine ⟨.of_nil hrequests hrest, ?_⟩
        simp only [WorkerProcess.receiveIn, hawaiting]
        refine ⟨hanswered.stray, fun q y hy => ?_⟩
        obtain hy | hy := List.mem_append.1 hy
        · exact hanswered.replies q y hy
        · obtain ⟨rfl, rfl⟩ := Prod.mk.inj (List.mem_singleton.1 hy)
          exact hx
      · cases ha.symm.trans hnone

/-- As above for the connection on which a Worker proves its key. -/
theorem Prompt.receiveOpening {m : Downward α β} {rest : List (Downward α β)}
    (h : p.Prompt k) (hanswered : p.Answered) (hsession : p.session = none)
    (hdown : k.down = m :: rest) {d : Nat} :
    ((p.receiveOpening d m).connection? ≠ none →
        (p.receiveOpening d m).Prompt { k with down := rest }) ∧
        (p.receiveOpening d m).Answered := by
  unfold WorkerProcess.receiveOpening
  split
  · refine ⟨fun _ => .of_nil ?_ ?_, ⟨hanswered.stray, hanswered.replies⟩⟩
    · refine List.eq_nil_iff_forall_not_mem.2 fun r hr => ?_
      have hawaits := h.request r hr
      simp [awaits, hsession] at hawaits
    · have hone := h.one
      rw [k.replies_cons hdown, List.length_append] at hone
      refine List.length_eq_zero_iff.1 ?_
      simp only [Downward.reply?, DirectReply.reply?, Option.toList_some,
        List.length_singleton] at hone
      omega
  · exact ⟨fun hne => absurd (by simp [connection?, hsession]) hne,
      ⟨hanswered.stray, hanswered.replies⟩⟩

theorem Prompt.receive {m : Downward α β} {rest : List (Downward α β)} (h : p.Prompt k)
    (hanswered : p.Answered) (hdown : k.down = m :: rest) :
    ((p.receive m).connection? ≠ none → (p.receive m).Prompt { k with down := rest }) ∧
      (p.receive m).Answered := by
  unfold WorkerProcess.receive
  cases hsession : p.session with
  | some a =>
      obtain ⟨hprompt, hanswered'⟩ := h.receiveIn hanswered hsession hdown
      exact ⟨fun _ => hprompt, hanswered'⟩
  | none =>
      cases hopening : p.opening with
      | none => exact ⟨fun hne => absurd (by simp [connection?, hsession, hopening]) hne,
          hanswered⟩
      | some d => exact h.receiveOpening hanswered hsession hdown

end WorkerProcess

namespace Network

variable {α β : Type} {n n' : Network α β} {c w : Nat}

structure Prompted (n : Network α β) : Prop where
  prompt : ∀ w c, (n.workers w).connection? = some c →
      (n.workers w).Prompt (n.connections c)
  answered : ∀ w, (n.workers w).Answered

namespace Prompted

theorem onConnection (h : n.Prompted)
    {f : WorkerSessionConnection α β → WorkerSessionConnection α β}
    (hf : ∀ w, (n.workers w).connection? = some c →
      (n.workers w).Prompt (n.connections c) →
      (n.workers w).Prompt (f (n.connections c))) :
    (n.onConnection c f).Prompted := by
  refine ⟨fun w d hd => ?_, h.answered⟩
  by_cases hdc : d = c
  · subst hdc
    rw [onConnection_self]
    exact hf w hd (h.prompt w d hd)
  · rw [onConnection_of_ne _ _ hdc]
    exact h.prompt w d hd

theorem shrink (h : n.Prompted)
    {f : WorkerSessionConnection α β → WorkerSessionConnection α β}
    (hrequests : (f (n.connections c)).requests.Sublist (n.connections c).requests)
    (hreplies : (f (n.connections c)).replies.Sublist (n.connections c).replies) :
    (n.onConnection c f).Prompted :=
  h.onConnection fun _ _ hprompt => hprompt.shrink hrequests hreplies

theorem withWorker (h : n.Prompted) {p : WorkerProcess α β}
    (hp : ∀ c, p.connection? = some c → p.Prompt (n.connections c))
    (hanswered : p.Answered) :
    (n.withWorker w p).Prompted := by
  refine ⟨fun v c hc => ?_, fun v => ?_⟩
  · by_cases hv : v = w
    · subst hv
      rw [withWorker_self] at hc ⊢
      exact hp c hc
    · rw [withWorker_of_ne _ _ hv] at hc ⊢
      exact h.prompt v c hc
  · by_cases hv : v = w
    · subst hv
      rw [withWorker_self]
      exact hanswered
    · rw [withWorker_of_ne _ _ hv]
      exact h.answered v

/-- The Worker stays on its connection and waits for the same. -/
theorem withSession (h : n.Prompted) {p : WorkerProcess α β}
    {a a' : AuthenticatedWorkerSession α β} (hold : (n.workers w).session = some a)
    (hnew : p.session = some a')
    (hsame : a'.connection = a.connection ∧ a'.awaiting = a.awaiting)
    (hanswered : p.Answered) :
    (n.withWorker w p).Prompted := by
  refine h.withWorker (fun c hc => ?_) hanswered
  rw [WorkerProcess.connection?_of_session hnew, hsame.1] at hc
  have hprompt := h.prompt w c ((WorkerProcess.connection?_of_session hold).trans hc)
  refine hprompt.same ?_ fun hnone => ?_
  · simp [WorkerProcess.awaits, hold, hnew, hsame.2]
  · cases hold.symm.trans hnone

theorem start (l : ControlLedger) : (Network.start l : Network α β).Prompted :=
  ⟨fun _ _ hc => (nomatch hc), fun _ => ⟨rfl, fun _ _ hx => nomatch hx⟩⟩

theorem push (h : n.Prompted) {m : Pushed α β} : (n.pushWorkerRelay c m).Prompted :=
  h.shrink (.refl _) (.refl _)

theorem pushPairCellMessage (h : n.Prompted) (w : Nat) (message : β) :
    (n.pushPairCellMessage w message).Prompted := by
  unfold Network.pushPairCellMessage
  split
  · exact h.push
  · exact h

theorem notify (h : n.Prompted) (notices : List (Nat × β)) :
    (n.notify notices).Prompted := by
  unfold Network.notify
  induction notices generalizing n with
  | nil => exact h
  | cons x notices ih => exact ih (h.pushPairCellMessage x.1 x.2)

theorem record (h : n.Prompted) (x : ServedRelay α) : (n.record x).Prompted := by
  have howe : (n.owe x.connection (.pairRelayAck x.ack)).Prompted :=
    h.shrink (.refl _) ((List.Sublist.refl _).append (List.nil_sublist _))
  exact ⟨howe.prompt, howe.answered⟩

/-- The first frame of a connection is taken, and answered if it is a request. -/
theorem serve (h : n.Prompted) {x : Handling β} (hstep : n.step (.serve c x) = some n') :
    n'.Prompted := by
  obtain ⟨f, rest, -, hup, hcase⟩ := serve_some hstep
  have hpop : (n.onConnection c fun k => { k with up := rest }).Prompted := by
    refine h.shrink ?_ (.refl _)
    simp only [WorkerSessionConnection.requests, hup]
    exact (List.sublist_cons_self f rest).filterMap _
  obtain ⟨-, hhandle⟩ | rfl := hcase
  · cases f with
    | request r =>
        obtain ⟨y, hy, rfl⟩ := Option.map_eq_some_iff.1 hhandle
        refine hpop.onConnection fun w hw _ => ?_
        rw [onConnection_self]
        exact (h.prompt w c hw).answer hup (SessionRequest.answer_accepted hy)
    | control message =>
        obtain ⟨m, -, rfl⟩ := Option.map_eq_some_iff.1 hhandle
        refine Prompted.notify (Prompted.push ?_) x.notices
        cases x.op with
        | none => exact hpop
        | some op => exact ⟨hpop.prompt, hpop.answered⟩
    | pairRelay requestId e =>
        obtain ⟨target, -, -, -, rfl⟩ | ⟨reason, -, rfl⟩ := serveRelay_some hhandle
        · exact hpop.push.record _
        · exact hpop.record _
  · exact hpop

/-- A Worker changes and, with it, its own connection. -/
theorem onOwn (h : n.Prompted) (hw : n.Wired) (hc : (n.workers w).connection? = some c)
    {f : WorkerSessionConnection α β → WorkerSessionConnection α β} {p : WorkerProcess α β}
    (hp : ∀ d, p.connection? = some d → d = c ∧ p.Prompt (f (n.connections c)))
    (hanswered : p.Answered) : ((n.onConnection c f).withWorker w p).Prompted := by
  refine ⟨fun v d hd => ?_, fun v => ?_⟩
  · by_cases hv : v = w
    · subst hv
      rw [withWorker_self] at hd ⊢
      obtain ⟨rfl, hprompt⟩ := hp d hd
      rw [withWorker_connections, onConnection_self]
      exact hprompt
    · rw [withWorker_of_ne _ _ hv] at hd ⊢
      have hdc : d ≠ c := by
        rintro rfl
        exact hv (hw.own_unique hd hc)
      rw [withWorker_connections, onConnection_of_ne _ _ hdc]
      exact h.prompt v d hd
  · by_cases hv : v = w
    · subst hv
      rw [withWorker_self]
      exact hanswered
    · rw [withWorker_of_ne _ _ hv]
      exact h.answered v

theorem receive (h : n.Prompted) (hw : n.Wired) (hstep : n.step (.receive w) = some n') :
    n'.Prompted := by
  obtain ⟨c, m, rest, hc, hdown, rfl⟩ := receive_some hstep
  obtain ⟨hprompt, hanswered⟩ := (h.prompt w c hc).receive (h.answered w) hdown
  refine h.onOwn hw hc (fun d hd => ?_) hanswered
  obtain hsame | hnone := WorkerProcess.receive_connection? hc m
  · exact ⟨Option.some.inj (hd.symm.trans hsame), hprompt (by simp [hsame])⟩
  · cases hnone.symm.trans hd

/-- A session that waited for nothing asks. -/
theorem request (h : n.Prompted) (hw : n.Wired) {r : SessionRequest}
    (hstep : n.step (.request w r) = some n') : n'.Prompted := by
  obtain ⟨a, ha, hidle, rfl⟩ := idle_some hstep
  have hc := WorkerProcess.connection?_of_session ha
  obtain ⟨hrequests, hreplies⟩ := (h.prompt w _ hc).idle ha hidle
  refine h.onOwn hw hc (fun d hd => ⟨(Option.some.inj hd).symm, ?_⟩)
    ⟨(h.answered w).stray, (h.answered w).replies⟩
  obtain ⟨hsent, hkept⟩ := (n.connections a.connection).send_request r
  rw [hrequests, List.nil_append] at hsent
  rw [hreplies] at hkept
  refine ⟨?_, fun q hq => ?_, fun x hx => ?_⟩
  · rw [hkept]
    exact hsent.length_le
  · rw [List.mem_singleton.1 (hsent.subset hq)]
    rfl
  · rw [hkept] at hx
    cases hx

/-- A Worker sends a frame that is no request and still waits for nothing. -/
theorem send (h : n.Prompted) (hw : n.Wired) {a : AuthenticatedWorkerSession α β}
    {f : Upward α β} {p : WorkerProcess α β} (ha : (n.workers w).session = some a)
    (hf : f.request? = none) (hsession : p.session = some a) (hanswered : p.Answered) :
    ((n.onConnection a.connection fun k => k.send f).withWorker w p).Prompted := by
  have hc := WorkerProcess.connection?_of_session ha
  refine h.onOwn hw hc (fun d hd => ⟨?_, ?_⟩) hanswered
  · exact Option.some.inj (hd.symm.trans (WorkerProcess.connection?_of_session hsession))
  · obtain ⟨hrequests, hreplies⟩ := (n.connections a.connection).send_other hf
    refine ((h.prompt w _ hc).shrink (by rw [hrequests]) (by rw [hreplies])).same ?_
      fun hnone => ?_
    · simp [WorkerProcess.awaits, ha, hsession]
    · cases ha.symm.trans hnone

theorem connect (h : n.Prompted) (hstep : n.step (.connect w) = some n') :
    n'.Prompted := by
  obtain ⟨hnone, hstep⟩ := Option.ite_none_right_eq_some.1 hstep
  obtain rfl := Option.some.inj hstep
  refine ⟨fun v d hd => ?_, fun v => ?_⟩
  · by_cases hdn : d = n.opened
    · subst hdn
      simp only [Function.update_self]
      exact .of_empty ⟨rfl, rfl, rfl, rfl⟩
    · simp only [Function.update_of_ne hdn]
      by_cases hv : v = w
      · subst hv
        have hsession : (n.workers v).session = none := by
          cases hs : (n.workers v).session with
          | none => rfl
          | some a => cases hnone.symm.trans (WorkerProcess.connection?_of_session hs)
        refine absurd ?_ hdn
        simpa [WorkerProcess.connection?, hsession, eq_comm] using hd
      · simp only [withWorker_of_ne _ _ hv] at hd ⊢
        exact h.prompt v d hd
  · by_cases hv : v = w
    · subst hv
      simp only [withWorker_self]
      exact ⟨(h.answered v).stray, (h.answered v).replies⟩
    · simp only [withWorker_of_ne _ _ hv]
      exact h.answered v

/-- A connection is registered and the Worker on it told so. -/
theorem replace (h : n.Prompted) (hw : n.Wired) {cursor : Nat}
    (hstep : n.step (.replace c cursor) = some n') : n'.Prompted := by
  obtain ⟨⟨-, hstage⟩, hstep⟩ := Option.ite_none_right_eq_some.1 hstep
  obtain rfl := Option.some.inj hstep
  have hregistered : (n.register (n.connections c).workerId (some c)).Prompted :=
    ⟨h.prompt, h.answered⟩
  refine hregistered.onConnection fun v hv _ => ?_
  have hempty := hw.waiting c (.inr hstage)
  have hsession : (n.workers v).session = none := by
    cases hs : (n.workers v).session with
    | none => rfl
    | some a =>
        have hsame :=
          Option.some.inj (hv.symm.trans (WorkerProcess.connection?_of_session hs))
        exact absurd (.inr (hsame ▸ hstage)) (hw.session v a hs)
  exact WorkerProcess.Prompt.authenticated hempty hsession

theorem step (h : n.Prompted) (hw : n.Wired) {l : Label α β} (hl : n.Undisturbed l)
    (hstep : Step n l n') : n'.Prompted := by
  unfold Step at hstep
  cases l with
  | connect w => exact h.connect hstep
  | serve c x => exact h.serve hstep
  | receive w => exact h.receive hw hstep
  | request w r => exact h.request hw hstep
  | authenticate c =>
      obtain ⟨-, hstep⟩ := Option.ite_none_right_eq_some.1 hstep
      obtain rfl := Option.some.inj hstep
      refine Prompted.shrink ?_ (.refl _) (.refl _)
      cases n.workerConnections (n.connections c).workerId with
      | none => exact h
      | some d =>
          simp only [supersede]
          exact h.shrink (.refl _) (.refl _)
  | replace c cursor => exact h.replace hw hstep
  | answer c =>
      obtain ⟨d, howed, -, rfl⟩ := answer_some hstep
      obtain ⟨hrequests, hreplies⟩ := WorkerSessionConnection.answer_replies howed
      exact h.shrink (by rw [hrequests]) hreplies
  | write c =>
      obtain ⟨m, rest, hout, -, rfl⟩ := write_some hstep
      obtain ⟨hrequests, hreplies⟩ := (n.connections c).write_replies m rest
      exact h.shrink (by rw [hrequests]) (by rw [hreplies])
  | finish c =>
      obtain ⟨-, hstep⟩ := Option.ite_none_right_eq_some.1 hstep
      obtain rfl := Option.some.inj hstep
      exact h.shrink (.refl _) ((List.Sublist.refl _).append (List.nil_sublist _))
  | discard c =>
      obtain ⟨-, hstep⟩ := Option.ite_none_right_eq_some.1 hstep
      obtain rfl := Option.some.inj hstep
      have hended : (n.onConnection c fun k => { k with stage := .ended }).Prompted :=
        h.shrink (.refl _) (.refl _)
      split
      · exact ⟨hended.prompt, hended.answered⟩
      · exact hended
  | ledger op =>
      obtain rfl := Option.some.inj hstep
      exact ⟨h.prompt, h.answered⟩
  | notice w message =>
      obtain rfl := Option.some.inj hstep
      exact h.pushPairCellMessage w message
  | forget w =>
      obtain rfl := Option.some.inj hstep
      exact ⟨h.prompt, h.answered⟩
  | restart =>
      obtain rfl := Option.some.inj hstep
      refine ⟨fun w c hc => ?_, h.answered⟩
      exact (h.prompt w c hc).shrink (List.nil_sublist _)
        ((List.Sublist.refl _).append (List.nil_sublist _))
  | cut c up down =>
      obtain rfl := Option.some.inj hstep
      exact h.shrink ((List.take_sublist _ _).filterMap _)
        (((List.take_sublist _ _).filterMap _).append (.refl _))
  | drain w inbox =>
      obtain ⟨a, ha, -, rfl⟩ := idle_some hstep
      have hanswered := h.answered w
      cases inbox <;> exact h.withSession ha rfl ⟨rfl, rfl⟩ ⟨hanswered.stray,
        hanswered.replies⟩
  | sendPairRelay w requestId e =>
      obtain ⟨a, ha, -, rfl⟩ := idle_some hstep
      exact h.send hw ha rfl ha ⟨(h.answered w).stray, (h.answered w).replies⟩
  | sendPairCellControl w message =>
      obtain ⟨a, ha, -, rfl⟩ := idle_some hstep
      obtain ⟨hrequests, hreplies⟩ :=
        (n.connections a.connection).send_other (f := .control message) rfl
      exact h.shrink (by rw [hrequests]) (by rw [hreplies])
  | interrupt w =>
      obtain ⟨a, ha, rfl⟩ := interrupt_some hstep
      have hidle : a.awaiting = none := by simpa [ha] using hl w rfl
      exact h.withSession ha rfl ⟨rfl, hidle.symm⟩ ⟨(h.answered w).stray,
        (h.answered w).replies⟩
  | abandon w =>
      obtain rfl := Option.some.inj hstep
      exact h.withWorker (fun c hc => by cases hc) ⟨(h.answered w).stray,
        (h.answered w).replies⟩

end Prompted

/--
As long as no wait is broken off, whatever else happens, every reply a session
takes is the one its request asks for, and `receive_worker_relay` meets none.
-/
theorem replies_answer_requests {l : ControlLedger}
    (h : Reach Step Undisturbed (Network.start l) n) (w : Nat) : (n.workers w).stray = [] ∧
      ∀ r x, (r, x) ∈ (n.workers w).replies → r.accepts x = true := by
  have hall : n.Wired ∧ n.Prompted :=
    h.invariant (I := fun n => n.Wired ∧ n.Prompted) ⟨.start l, .start l⟩
      fun t label u ht hok hstep => ⟨ht.1.step hstep, ht.2.step ht.1 hok hstep⟩
  exact ⟨(hall.2.answered w).stray, (hall.2.answered w).replies⟩

namespace Sample

/-- The Worker asks twice, the second time with a push before the reply. -/
def asking : List (Label Nat Unit) :=
  login 1 0 ++ [.request 1 (.workerFact 5 true), .serve 0 {}, .answer 0, .receive 1,
    .request 1 .heartbeat, .notice 1 (), .write 0, .serve 0 {}, .answer 0,
    .receive 1, .receive 1]

end Sample

theorem replies_answer_requests_asking : ∃ n : Network Nat Unit,
    Reach Step Undisturbed (start Sample.ledger) n ∧ (n.workers 1).replies.length = 2 ∧
    (n.workers 1).stray = [] ∧ ∀ r x, (r, x) ∈ (n.workers 1).replies →
      r.accepts x = true := by
  obtain ⟨n, hrun, hn⟩ := plays_any Undisturbed (start Sample.ledger) Sample.asking
    (fun n => decide ((n.workers 1).replies.length = 2)) (by decide +kernel)
  exact ⟨n, hrun, of_decide_eq_true hn, replies_answer_requests hrun 1⟩

end Network

end PairCell
