import FfVpn.Library.Transition
import FfVpn.Model.DnsServer

/-!
# Do the transactions of the DNS proxy mix

Task `i` belongs to the `i`-th datagram received: it holds a copy of its bytes and its source, and
nothing that happens later changes either, the reuse of the buffer included. What it sends is what
its own exchange came to, or a `SERVFAIL` for its own query; and it sends once, since `send_to` is
the last thing it does.
-/

set_option autoImplicit false

namespace FfVpn.Analysis.DnsTransactions

open FfVpn.Library.Transition FfVpn.Model.Config FfVpn.Model.Dns FfVpn.Model.Hops
  FfVpn.Model.DnsServer

variable (ext : Externals) (doh : List UInt8 → Outcome → Bool)

/-- What is relied on of `hickory-proto`: what is encoded of a message with the opcode and the
questions of one that came in a datagram, and with a response code that fits into the header,
decodes to the same header and the same questions. -/
def EncodingPreserves : Prop :=
  ∀ query parsed resp bytes, query.length ≤ maxUdpDns → ext.fromVec query = some parsed →
    resp.opCode = parsed.opCode → resp.responseCode.toNat < 16 → resp.queries = parsed.queries →
      ext.toVec resp = some bytes → ext.fromVec bytes = some resp

/-- And: the `SERVFAIL` for a message that came in a datagram can be encoded. -/
def ServfailEncodes : Prop :=
  ∀ query parsed, query.length ≤ maxUdpDns → ext.fromVec query = some parsed →
    (buildServfail ext query).isSome = true

/-- The datagrams received, with their sources. -/
def received (as : List Act) : List (SocketAddr × List UInt8) :=
  as.filterMap fun
    | .receive peer datagram => some (peer, datagram)
    | _ => none

/-- What may be sent for a query: the body that posting the query returned, or, where that failed
and the query is a DNS message, a `SERVFAIL` with its id, its opcode and its questions. -/
inductive Answers (query message : List UInt8) : Prop
  | body {status : Nat} (hpost : doh query (.response status (some message)) = true)
      (hstatus : ¬ (400 ≤ status ∧ status < 600))
  | servfail {outcome : Outcome} {parsed resp : Message} (hpost : doh query outcome = true)
      (hfailed : forwardDoh outcome = none) (hquery : ext.fromVec query = some parsed)
      (hresp : ext.fromVec message = some resp) (hid : resp.id = parsed.id)
      (hresponse : resp.response = true) (hopCode : resp.opCode = parsed.opCode)
      (hcode : resp.responseCode = servFail) (hqueries : resp.queries = parsed.queries)

/-- The datagrams that task `i` has sent. -/
def sentBy (s : Server) (i : Nat) : List Outgoing := s.sent.filter (·.task = i)

/-- The task of the `i`-th datagram has come to its end. -/
def Over (s : Server) (i : Nat) : Prop := ∃ t, s.tasks[i]? = some t ∧ t.phase = .done

/-- The task of the `i`-th datagram goes on, whatever `forward_doh` or `send_to` returns. -/
def CanGoOn (s : Server) (i : Nat) (datagram : List UInt8) : Prop :=
  (∀ outcome, doh datagram outcome = true →
    (s.step ext doh (.forwarded i outcome)).isSome = true) ∨
  ∀ ok, (s.step ext doh (.written i ok)).isSome = true

/-- What has become of the `i`-th datagram, after the actions `as`. -/
structure Transaction (as : List Act) (s : Server) (i : Nat) (peer : SocketAddr)
    (datagram : List UInt8) : Prop where
  atMostOne : (sentBy s i).length ≤ 1
  toSource : ∀ o ∈ sentBy s i, o.peer = peer
  answers : ∀ o ∈ sentBy s i, Answers ext doh datagram o.message
  /-- A message is answered, unless the write fails. -/
  answered : (ext.fromVec datagram).isSome = true → Over s i →
    sentBy s i ≠ [] ∨ .written i false ∈ as
  goesOn : ¬ Over s i → CanGoOn ext doh s i datagram

/-! ## What a task sends -/

/-- The bytes are what the exchange of a query came to. -/
def CameTo (query message : List UInt8) : Prop :=
  ∃ outcome, doh query outcome = true ∧
    (forwardDoh outcome = some message ∨
      forwardDoh outcome = none ∧ buildServfail ext query = some message)

variable {ext doh}

theorem forwardDoh_eq_some {outcome : Outcome} {message : List UInt8}
    (h : forwardDoh outcome = some message) :
    ∃ status, outcome = .response status (some message) ∧ ¬ (400 ≤ status ∧ status < 600) := by
  cases outcome with
  | failed => cases h
  | response status body =>
    rw [forwardDoh] at h
    split_ifs at h with hstatus
    exact ⟨status, by rw [h], hstatus⟩

/-- The response `build_servfail` makes for a query. -/
def servfailFor (parsed : Message) : Message where
  id := parsed.id
  response := true
  opCode := parsed.opCode
  responseCode := servFail
  queries := parsed.queries

theorem EncodingPreserves.servfail (hcodec : EncodingPreserves ext) {query bytes : List UInt8}
    (hlen : query.length ≤ maxUdpDns) (h : buildServfail ext query = some bytes) :
    ∃ parsed, ext.fromVec query = some parsed ∧
      ext.fromVec bytes = some (servfailFor parsed) := by
  obtain ⟨parsed, hparsed, hencoded⟩ := Option.bind_eq_some_iff.mp h
  have hcode : (servfailFor parsed).responseCode.toNat < 16 := by
    show servFail.toNat < 16
    decide
  exact ⟨parsed, hparsed,
    hcodec query parsed (servfailFor parsed) bytes hlen hparsed rfl hcode rfl hencoded⟩

theorem ServfailEncodes.ne_none (hencodes : ServfailEncodes ext) {query : List UInt8}
    (hlen : query.length ≤ maxUdpDns) (h : (ext.fromVec query).isSome = true) :
    buildServfail ext query ≠ none := by
  obtain ⟨parsed, hparsed⟩ := Option.isSome_iff_exists.mp h
  exact Option.isSome_iff_ne_none.mp (hencodes query parsed hlen hparsed)

theorem CameTo.answers (hcodec : EncodingPreserves ext) {query message : List UInt8}
    (hlen : query.length ≤ maxUdpDns) (h : CameTo ext doh query message) :
    Answers ext doh query message := by
  obtain ⟨outcome, hpost, hbody | ⟨hfailed, hservfail⟩⟩ := h
  · obtain ⟨status, rfl, hstatus⟩ := forwardDoh_eq_some hbody
    exact .body hpost hstatus
  · obtain ⟨parsed, hparsed, hfromVec⟩ := hcodec.servfail hlen hservfail
    exact .servfail hpost hfailed hparsed hfromVec rfl rfl rfl rfl rfl

/-- After `forward_doh` a task sends what its exchange came to, unless there is nothing to send. -/
theorem answer_cases (ext : Externals) (t : Task) {outcome : Outcome}
    (hpost : doh t.query outcome = true) :
    (∃ message, t.answer ext outcome = .sending message ∧ CameTo ext doh t.query message) ∨
      t.answer ext outcome = .done ∧ buildServfail ext t.query = none := by
  unfold Task.answer
  cases hforward : forwardDoh outcome with
  | some message => exact .inl ⟨message, rfl, outcome, hpost, .inl hforward⟩
  | none =>
    cases hservfail : buildServfail ext t.query with
    | some message => exact .inl ⟨message, rfl, outcome, hpost, .inr ⟨hforward, hservfail⟩⟩
    | none => exact .inr ⟨rfl, rfl⟩

/-! ## The invariant -/

/-- Where a task is, against what it has sent and what the socket has refused. -/
def PhaseInv (ext : Externals) (doh : List UInt8 → Outcome → Bool) (as : List Act) (s : Server)
    (i : Nat) (t : Task) : Prop :=
  match t.phase with
  | .forwarding => True
  | .sending message => CameTo ext doh t.query message
  | .done =>
    i ∈ s.sent.map Outgoing.task ∨ .written i false ∈ as ∨ buildServfail ext t.query = none

/-- After the actions `as`: the tasks belong to the datagrams received, in their order, and what
has been sent to them. -/
structure ServerInv (ext : Externals) (doh : List UInt8 → Outcome → Bool) (as : List Act)
    (s : Server) : Prop where
  length : s.tasks.length = (received as).length
  origin : ∀ (i : Nat) (t : Task), s.tasks[i]? = some t →
    ∃ datagram, (received as)[i]? = some (t.peer, datagram) ∧ t.query = datagram.take maxUdpDns
  phase : ∀ (i : Nat) (t : Task), s.tasks[i]? = some t → PhaseInv ext doh as s i t
  sent : ∀ o ∈ s.sent, ∃ t, s.tasks[o.task]? = some t ∧ t.phase = .done ∧ o.peer = t.peer ∧
    CameTo ext doh t.query o.message
  once : (s.sent.map Outgoing.task).Nodup

theorem received_append (as : List Act) (a : Act) :
    received (as ++ [a]) = received as ++ received [a] := by
  simp [received, List.filterMap_append]

theorem PhaseInv.later {as : List Act} {s s' : Server} {i : Nat} {t : Task} (a : Act)
    (hsent : s.sent <+: s'.sent) (h : PhaseInv ext doh as s i t) :
    PhaseInv ext doh (as ++ [a]) s' i t := by
  unfold PhaseInv at *
  cases hphase : t.phase with
  | forwarding => trivial
  | sending message => simpa [hphase] using h
  | done =>
    simp only [hphase] at h ⊢
    rcases h with hmem | hmem | hnone
    · exact .inl ((hsent.map Outgoing.task).subset hmem)
    · exact .inr (.inl (List.mem_append_left _ hmem))
    · exact .inr (.inr hnone)

/-- The items of a list with one more at its end. -/
theorem getElem?_concat {α : Type} {l : List α} {x y : α} {i : Nat} :
    (l ++ [x])[i]? = some y ↔ l[i]? = some y ∨ i = l.length ∧ x = y := by
  rcases Nat.lt_trichotomy i l.length with hlt | heq | hgt
  · simp [List.getElem?_append_left hlt, hlt.ne]
  · subst heq
    simp
  · have hend : (l ++ [x])[i]? = none := by
      rw [List.getElem?_eq_none_iff, List.length_append, List.length_singleton]
      omega
    simp [hend, hgt.ne', List.getElem?_eq_none hgt.le]

/-- A datagram is received, and a task spawned for it. -/
theorem ServerInv.receive {as : List Act} {s : Server} (h : ServerInv ext doh as s)
    (peer : SocketAddr) (datagram : List UInt8) (buf : Buffer) :
    ServerInv ext doh (as ++ [.receive peer datagram])
      { s with
        buf := buf
        tasks := s.tasks ++ [{ query := datagram.take maxUdpDns, peer := peer }] } where
  length := by
    rw [received_append, List.length_append, List.length_append, h.length]
    rfl
  origin := by
    intro i t ht
    have hreceived :
        received (as ++ [.receive peer datagram]) = received as ++ [(peer, datagram)] :=
      received_append as _
    rw [hreceived]
    rcases getElem?_concat.mp ht with hold | ⟨rfl, rfl⟩
    · obtain ⟨d, hd, hquery⟩ := h.origin i t hold
      exact ⟨d, getElem?_concat.mpr (.inl hd), hquery⟩
    · exact ⟨datagram, getElem?_concat.mpr (.inr ⟨h.length, rfl⟩), rfl⟩
  phase := by
    intro i t ht
    rcases getElem?_concat.mp ht with hold | ⟨rfl, rfl⟩
    · exact (h.phase i t hold).later _ (List.prefix_refl s.sent)
    · trivial
  sent := by
    intro o ho
    obtain ⟨t, ht, hrest⟩ := h.sent o ho
    exact ⟨t, getElem?_concat.mpr (.inl ht), hrest⟩
  once := h.once

/-- A step of task `i` that changes its phase only: what was received is the same, and every other
task is where it was. -/
theorem ServerInv.origin_setPhase {as : List Act} {s : Server} (h : ServerInv ext doh as s)
    (i j : Nat) (phase : Phase) (t : Task) (ht : (s.setPhase i phase).tasks[j]? = some t) :
    ∃ datagram, (received as)[j]? = some (t.peer, datagram) ∧
      t.query = datagram.take maxUdpDns := by
  rw [setPhase_getElem?] at ht
  split_ifs at ht with hj
  · obtain ⟨t', ht', rfl⟩ := Option.map_eq_some_iff.mp ht
    exact h.origin j t' ht'
  · exact h.origin j t ht

/-- A task that is not done has sent nothing. -/
theorem ServerInv.not_sent {as : List Act} {s : Server} {i : Nat} {t : Task}
    (h : ServerInv ext doh as s) (ht : s.tasks[i]? = some t) (hphase : t.phase ≠ .done) :
    ∀ o ∈ s.sent, o.task ≠ i := by
  rintro o ho rfl
  obtain ⟨t', ht', hdone, -⟩ := h.sent o ho
  obtain rfl := Option.some.inj (ht.symm.trans ht')
  exact hphase hdone

/-- Task `i` comes out of `forward_doh`. -/
theorem ServerInv.forwarded {as : List Act} {s : Server} {i : Nat} {t : Task} {outcome : Outcome}
    (h : ServerInv ext doh as s) (ht : s.tasks[i]? = some t) (hphase : t.phase = .forwarding)
    (hpost : doh t.query outcome = true) :
    ServerInv ext doh (as ++ [.forwarded i outcome]) (s.setPhase i (t.answer ext outcome)) where
  length := by
    rw [setPhase_length, h.length, received_append]
    simp [received]
  origin := by
    have hreceived : received (as ++ [.forwarded i outcome]) = received as := by
      simp [received]
    rw [hreceived]
    exact fun j => h.origin_setPhase i j _
  phase := by
    intro j t' ht'
    rw [setPhase_getElem?] at ht'
    split_ifs at ht' with hj
    · subst hj
      obtain rfl : { t with phase := t.answer ext outcome } = t' := by simpa [ht] using ht'
      unfold PhaseInv
      rcases answer_cases ext t hpost with ⟨message, hsending, hcame⟩ | ⟨hdone, hnone⟩
      · simpa only [hsending] using hcame
      · simp only [hdone]
        exact .inr (.inr hnone)
    · exact (h.phase j t' ht').later _ (List.prefix_refl s.sent)
  sent := by
    intro o ho
    have hother := h.not_sent ht (by simp [hphase]) o ho
    obtain ⟨t', ht', hrest⟩ := h.sent o ho
    refine ⟨t', ?_, hrest⟩
    rw [setPhase_getElem?, if_neg hother]
    exact ht'
  once := h.once

/-- The `send_to` of task `i` returns. -/
theorem ServerInv.written {as : List Act} {s : Server} {i : Nat} {t : Task} {message : List UInt8}
    (ok : Bool) (h : ServerInv ext doh as s) (ht : s.tasks[i]? = some t)
    (hphase : t.phase = .sending message) :
    ServerInv ext doh (as ++ [.written i ok]) { s.setPhase i .done with
      sent := if ok then s.sent ++ [⟨i, t.peer, message⟩] else s.sent } where
  length := by
    show (s.setPhase i .done).tasks.length = _
    rw [setPhase_length, h.length, received_append]
    simp [received]
  origin := by
    have hreceived : received (as ++ [.written i ok]) = received as := by
      simp [received]
    rw [hreceived]
    exact fun j => h.origin_setPhase i j _
  phase := by
    intro j t' ht'
    have hprefix : s.sent <+: if ok then s.sent ++ [⟨i, t.peer, message⟩] else s.sent := by
      cases ok with
      | false => exact List.prefix_refl _
      | true => exact List.prefix_append _ _
    replace ht' : (s.setPhase i .done).tasks[j]? = some t' := ht'
    rw [setPhase_getElem?] at ht'
    split_ifs at ht' with hj
    · subst hj
      obtain rfl : { t with phase := .done } = t' := by simpa [ht] using ht'
      show _ ∨ _ ∨ _
      cases ok with
      | false => exact .inr (.inl (by simp))
      | true => exact .inl (by simp)
    · exact (h.phase j t' ht').later _ hprefix
  sent := by
    intro o ho
    have hold : o ∈ s.sent ∨ o = ⟨i, t.peer, message⟩ := by
      cases ok with
      | false => exact .inl ho
      | true => simpa using ho
    show ∃ t, (s.setPhase i .done).tasks[o.task]? = some t ∧ _
    rw [setPhase_getElem?]
    rcases hold with hmem | rfl
    · have hother := h.not_sent ht (by simp [hphase]) o hmem
      rw [if_neg hother]
      exact h.sent o hmem
    · have hcame := h.phase i t ht
      unfold PhaseInv at hcame
      simp only [hphase] at hcame
      rw [if_pos rfl, ht]
      exact ⟨_, rfl, rfl, rfl, hcame⟩
  once := by
    cases ok with
    | false => exact h.once
    | true =>
      have hnew : i ∉ s.sent.map Outgoing.task := by
        intro hmem
        obtain ⟨o, ho, hi⟩ := List.mem_map.mp hmem
        exact h.not_sent ht (by simp [hphase]) o ho hi
      show ((s.sent ++ [_]).map Outgoing.task).Nodup
      rw [List.map_append, List.map_singleton]
      rw [← List.concat_eq_append]
      exact h.once.concat hnew

/-- The loop of `run` does something else than spawning a task. -/
theorem ServerInv.loop {as : List Act} {s s' : Server} {a : Act} (h : ServerInv ext doh as s)
    (ha : received [a] = []) (htasks : s'.tasks = s.tasks) (hsent : s'.sent = s.sent) :
    ServerInv ext doh (as ++ [a]) s' where
  length := by rw [htasks, h.length, received_append, ha, List.append_nil]
  origin := by
    rw [htasks, received_append, ha, List.append_nil]
    exact h.origin
  phase := by
    rw [htasks]
    exact fun i t ht => (h.phase i t ht).later a (by rw [hsent])
  sent := by
    rw [hsent, htasks]
    exact h.sent
  once := by
    rw [hsent]
    exact h.once

/-- **One step.** -/
theorem ServerInv.next {as : List Act} {s s' : Server} {a : Act} (h : ServerInv ext doh as s)
    (hstep : s.step ext doh a = some s') : ServerInv ext doh (as ++ [a]) s' := by
  cases a with
  | receive peer datagram =>
    simp only [Server.step, Option.ite_none_right_eq_some, Option.some.injEq] at hstep
    obtain ⟨-, rfl⟩ := hstep
    rw [bufPrefix_recvFrom]
    exact h.receive peer datagram _
  | receiveError =>
    simp only [Server.step, Option.ite_none_right_eq_some, Option.some.injEq] at hstep
    obtain ⟨-, rfl⟩ := hstep
    exact h.loop rfl rfl rfl
  | cancel =>
    obtain rfl := Option.some.inj hstep
    exact h.loop rfl rfl rfl
  | forwarded i outcome =>
    simp only [Server.step, Option.bind_eq_some_iff, Option.ite_none_right_eq_some,
      Option.some.injEq] at hstep
    obtain ⟨t, ht, ⟨hphase, hpost⟩, rfl⟩ := hstep
    exact h.forwarded ht hphase hpost
  | written i ok =>
    simp only [Server.step, Option.bind_eq_some_iff] at hstep
    obtain ⟨t, ht, hsend⟩ := hstep
    split at hsend
    · next message hphase =>
      obtain rfl := Option.some.inj hsend
      exact h.written ok ht hphase
    · cases hsend

/-! ## Runs -/

theorem serverInv_of_run {as : List Act} {s : Server}
    (hrun : run (Server.step ext doh) {} as = some s) : ServerInv ext doh as s := by
  refine run_history ?_ (fun as s a s' _ h hstep => h.next hstep) hrun
  exact ⟨rfl, by simp, by simp, by simp, List.nodup_nil⟩

/-- A task that is not done goes on when what it awaits is there. -/
theorem canGoOn {s : Server} {i : Nat} {t : Task} (ht : s.tasks[i]? = some t)
    (hphase : t.phase ≠ .done) : CanGoOn ext doh s i t.query := by
  cases hp : t.phase with
  | forwarding =>
    refine .inl fun outcome hpost => ?_
    simp [Server.step, ht, hp, hpost]
  | sending message =>
    refine .inr fun ok => ?_
    simp [Server.step, ht, hp]
  | done => exact absurd hp hphase

/-- No task sends twice. -/
theorem length_sentBy {s : Server} (h : (s.sent.map Outgoing.task).Nodup) (i : Nat) :
    (sentBy s i).length ≤ 1 := by
  have hcount := List.nodup_iff_count_le_one.mp h i
  rw [List.count, List.countP_map, List.countP_eq_length_filter] at hcount
  simpa only [sentBy, Function.comp_def, beq_eq_decide] using hcount

/-- The task of a datagram. -/
theorem ServerInv.task {as : List Act} {s : Server} {i : Nat} {peer : SocketAddr}
    {datagram : List UInt8} (h : ServerInv ext doh as s)
    (hreceived : (received as)[i]? = some (peer, datagram))
    (hlen : datagram.length ≤ maxUdpDns) :
    ∃ t, s.tasks[i]? = some t ∧ t.peer = peer ∧ t.query = datagram := by
  have hi : i < s.tasks.length := by
    rw [h.length]
    exact (List.getElem?_eq_some_iff.mp hreceived).1
  obtain ⟨d, hd, hquery⟩ := h.origin i s.tasks[i] (List.getElem?_eq_getElem hi)
  rw [hreceived, Option.some.injEq, Prod.mk.injEq] at hd
  obtain ⟨hpeer, rfl⟩ := hd
  rw [List.take_of_length_le hlen] at hquery
  exact ⟨_, List.getElem?_eq_getElem hi, hpeer.symm, hquery⟩

theorem ServerInv.transaction {as : List Act} {s : Server} {i : Nat} {peer : SocketAddr}
    {datagram : List UInt8} (h : ServerInv ext doh as s) (hcodec : EncodingPreserves ext)
    (hencodes : ServfailEncodes ext) (hreceived : (received as)[i]? = some (peer, datagram))
    (hlen : datagram.length ≤ maxUdpDns) : Transaction ext doh as s i peer datagram := by
  obtain ⟨t, ht, rfl, rfl⟩ := h.task hreceived hlen
  have hsent : ∀ o ∈ sentBy s i, o.peer = t.peer ∧ CameTo ext doh t.query o.message := by
    intro o ho
    obtain ⟨hmem, htask⟩ := List.mem_filter.mp ho
    obtain ⟨t', ht', -, hpeer, hcame⟩ := h.sent o hmem
    rw [of_decide_eq_true htask, ht] at ht'
    obtain rfl := Option.some.inj ht'
    exact ⟨hpeer, hcame⟩
  refine ⟨length_sentBy h.once i, fun o ho => (hsent o ho).1,
    fun o ho => (hsent o ho).2.answers hcodec hlen, ?_, ?_⟩
  · rintro hparses ⟨t', ht', hphase⟩
    obtain rfl := Option.some.inj (ht.symm.trans ht')
    have hdone := h.phase i t ht
    unfold PhaseInv at hdone
    simp only [hphase] at hdone
    rcases hdone with hmem | hrefused | hnone
    · obtain ⟨o, ho, htask⟩ := List.mem_map.mp hmem
      refine .inl (List.ne_nil_of_mem (a := o) ?_)
      exact List.mem_filter.mpr ⟨ho, decide_eq_true htask⟩
    · exact .inr hrefused
    · exact absurd hnone (hencodes.ne_none hlen hparses)
  · exact fun hover => canGoOn ht fun hphase => hover ⟨t, ht, hphase⟩

/-- **Transactions do not mix.** Whatever is received and in whichever order the tasks go on, each
datagram that fits the buffer has its own transaction, and nothing else is sent. -/
theorem dns_transactions (hcodec : EncodingPreserves ext) (hencodes : ServfailEncodes ext)
    (as : List Act) (s : Server) (hrun : run (Server.step ext doh) {} as = some s) :
    (∀ (i : Nat) (peer : SocketAddr) (datagram : List UInt8),
      (received as)[i]? = some (peer, datagram) → datagram.length ≤ maxUdpDns →
        Transaction ext doh as s i peer datagram) ∧
    ∀ o ∈ s.sent, o.task < (received as).length := by
  have h := serverInv_of_run hrun
  refine ⟨fun i peer datagram hreceived hlen => h.transaction hcodec hencodes hreceived hlen, ?_⟩
  intro o ho
  obtain ⟨t, ht, -⟩ := h.sent o ho
  rw [← h.length]
  exact (List.getElem?_eq_some_iff.mp ht).1

/-! ## The forwards of `Model.Dns` -/

/-- The bytes of an answer of `Model.Dns`. -/
def bytes : Answer → List UInt8
  | .doh body => body
  | .servfail message => message

/-- What the exchange of a forward of `Model.Dns` has come to, unless a redirect is followed. -/
def outcome? (r : Reply) : Next → Option Outcome
  | .answer body => some (.response r.status (some body))
  | .follow _ => none
  | .error => some .failed

/-- A response that the client does not refuse is one that `forward_doh` returns the body of. -/
theorem next_answer {r : Reply} {url : HttpUrl} {redirects : Nat} {body : List UInt8}
    (h : r.next ext url redirects = .answer body) :
    forwardDoh (.response r.status (some body)) = some body := by
  rw [forwardDoh, if_neg]
  rintro ⟨hlow, hhigh⟩
  unfold Reply.next at h
  split at h
  · next hredirect =>
    simp only [List.mem_cons, List.not_mem_nil, or_false] at hredirect
    omega
  · rw [if_pos ⟨hlow, hhigh⟩] at h
    cases h

/-- A forward of `Model.Dns` sends what the task of `Model.DnsServer` with its query sends. -/
theorem replied_sent (s : Proxy) (i : Nat) (f : Forward) (r : Reply) (t : Task)
    (hquery : t.query = f.query) {outcome : Outcome}
    (h : outcome? r (r.next ext f.url f.redirects) = some outcome) :
    (s.replied ext i f r).sent.map (fun p => (p.1, bytes p.2)) =
      s.sent.map (fun p => (p.1, bytes p.2)) ++
        match t.answer ext outcome with
        | .sending message => [(f.peer, message)]
        | _ => [] := by
  cases hnext : r.next ext f.url f.redirects with
  | answer body =>
    rw [hnext] at h
    obtain rfl := Option.some.inj h
    simp [Proxy.replied, Proxy.pooled, hnext, Task.answer, next_answer hnext, bytes]
  | follow url =>
    rw [hnext] at h
    cases h
  | error =>
    rw [hnext] at h
    obtain rfl := Option.some.inj h
    cases hservfail : buildServfail ext f.query <;>
      simp [Proxy.replied, Proxy.pooled, Proxy.fail, hnext, Task.answer, forwardDoh, hquery,
        hservfail, bytes]

/-! ## A run -/

/-- The DNS messages with one question, about the root, and no other record. -/
def rootExt : Externals where
  parse := fun _ => none
  join := fun _ _ => none
  osQuery := fun _ => []
  fromVec
    | [i, j, f, g, 0, 1, 0, 0, 0, 0, 0, 0, 0, t, u, c, d] => some {
        id := Model.Config.segment i j
        response := 0x80 ≤ f.toNat
        opCode := UInt8.ofNat (f.toNat / 8 % 16)
        responseCode := UInt16.ofNat (g.toNat % 16)
        queries := [⟨[], Model.Config.segment t u, Model.Config.segment c d⟩] }
    | _ => none
  toVec m :=
    match m.queries with
    | [⟨[], queryType, queryClass⟩] =>
      let hi (n : UInt16) := UInt8.ofNat (n.toNat / 256)
      let lo (n : UInt16) := UInt8.ofNat (n.toNat % 256)
      some [hi m.id, lo m.id,
        UInt8.ofNat ((if m.response then 0x80 else 0) + m.opCode.toNat % 16 * 8),
        UInt8.ofNat (m.responseCode.toNat % 16), 0, 1, 0, 0, 0, 0, 0, 0, 0,
        hi queryType, lo queryType, hi queryClass, lo queryClass]
    | _ => none

/-- A 16-bit number is its two bytes. -/
theorem segment_hi_lo (n : UInt16) :
    Model.Config.segment (UInt8.ofNat (n.toNat / 256)) (UInt8.ofNat (n.toNat % 256)) = n := by
  have hn := n.toNat_lt
  apply UInt16.toNat.inj
  simp only [Model.Config.segment, UInt16.toNat_ofNat', UInt8.toNat_ofNat']
  omega

theorem encodingPreserves_rootExt : EncodingPreserves rootExt := by
  intro query parsed resp bytes _ hparsed hopCode hcode hqueries hencoded
  simp only [rootExt] at hparsed
  split at hparsed
  · next i j f g t u c d =>
    obtain rfl := Option.some.inj hparsed
    obtain ⟨id, response, opCode, responseCode, queries⟩ := resp
    simp only at hopCode hcode hqueries
    subst hopCode hqueries
    obtain rfl := Option.some.inj hencoded
    simp only [rootExt, segment_hi_lo, Option.some.injEq, Message.mk.injEq, and_true, true_and]
    have hf := f.toNat_lt
    refine ⟨?_, ?_, ?_⟩
    · cases response <;> simp <;> omega
    · apply UInt8.toNat.inj
      cases response <;> simp <;> omega
    · apply UInt16.toNat.inj
      simp
      omega
  · cases hparsed

theorem servfailEncodes_rootExt : ServfailEncodes rootExt := by
  intro query parsed _ hparsed
  simp only [buildServfail, hparsed, Option.bind_eq_bind, Option.bind_some]
  simp only [rootExt] at hparsed
  split at hparsed
  · obtain rfl := Option.some.inj hparsed
    rfl
  · cases hparsed

/-- A query for the name servers of the root, with a low byte of its id. -/
def rootQuery (id : UInt8) : List UInt8 :=
  [0xAB, id, 0x01, 0, 0, 1, 0, 0, 0, 0, 0, 0, 0, 0, 2, 0, 1]

/-- The query as a response. -/
def responseTo (query : List UInt8) : List UInt8 := query.set 2 0x81

/-- A DoH server whose answer to a query is that of the query. -/
def echo (query : List UInt8) : Outcome → Bool
  | .response 200 (some body) => body = responseTo query
  | .response 200 none => false
  | _ => true

def peerA : SocketAddr := ⟨.v4 [10, 0, 0, 2], 40000⟩

def peerB : SocketAddr := ⟨.v4 [10, 0, 0, 2], 40001⟩

/-- Three datagrams, the second of which is no message; the forwards return in another order. -/
def mixedRun : List Act :=
  [.receive peerA (rootQuery 1), .receive peerB [0xFF], .receive peerB (rootQuery 2),
    .forwarded 2 (.response 200 (some (responseTo (rootQuery 2)))), .forwarded 1 .failed,
    .written 2 true, .forwarded 0 (.response 502 (some [8])), .cancel, .written 0 true]

theorem dns_transactions_mixedRun :
    ∃ s, run (Server.step rootExt echo) {} mixedRun = some s ∧
      s.sent.map (fun o => (o.peer, o.message)) =
        [(peerB, responseTo (rootQuery 2)),
          (peerA, [0xAB, 1, 0x80, 2, 0, 1, 0, 0, 0, 0, 0, 0, 0, 0, 2, 0, 1])] ∧
      Transaction rootExt echo mixedRun s 0 peerA (rootQuery 1) := by
  obtain ⟨s, hrun, hsent⟩ := exists_of_run_map (Server.step rootExt echo) {} mixedRun
    (fun s => s.sent.map (fun o => (o.peer, o.message)) = [(peerB, responseTo (rootQuery 2)),
      (peerA, [0xAB, 1, 0x80, 2, 0, 1, 0, 0, 0, 0, 0, 0, 0, 0, 2, 0, 1])])
    (by decide +kernel)
  have h := dns_transactions encodingPreserves_rootExt servfailEncodes_rootExt mixedRun s hrun
  exact ⟨s, hrun, of_decide_eq_true hsent, h.1 0 peerA (rootQuery 1) rfl (by decide)⟩

end FfVpn.Analysis.DnsTransactions
