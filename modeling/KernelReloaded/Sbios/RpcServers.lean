/-
The server side of the SIF RPC layer: queues, servers and the search for a
service.

Queues and servers are objects of the callers.  They are linked through pointer
fields: `SifSetRpcQueue` and `SifRegisterRpc` append, `search_svdata` walks.
The model keeps the objects in two memories under their addresses; following
`NULL` is an outcome of its own.  Each call runs with interrupts disabled and
is one step.
-/

import Mathlib.Data.List.Nodup
import Mathlib.Logic.Function.Basic

namespace KernelReloaded.RpcServer

/-! ### Objects -/

structure ServerData where
  sid : Nat
  func : Nat
  buff : Nat
  size : Int
  cfunc : Nat
  cbuff : Nat
  client : Nat
  pktAddr : Nat
  rpcNumber : Int
  receive : Nat
  rsize : Int
  rmode : Int
  rid : BitVec 32
  link : Option Nat
  next : Option Nat
  base : Nat
deriving DecidableEq

structure DataQueue where
  active : Int
  link : Option Nat
  start : Option Nat
  finish : Option Nat
  next : Option Nat
deriving DecidableEq

/-- `_sif_rpc_data` as far as the server side uses it, and the objects.  What
an object holds before it is first set up does not matter. -/
structure RpcData where
  activeQueue : Option Nat
  rdataTableIdx : Nat
  queues : Nat → DataQueue
  servers : Nat → ServerData

def RpcData.setQueue (data : RpcData) (address : Nat) (queue : DataQueue) :
    RpcData :=
  { data with queues := Function.update data.queues address queue }

def RpcData.setServer (data : RpcData) (address : Nat)
    (server : ServerData) : RpcData :=
  { data with servers := Function.update data.servers address server }

/-! ### Outcomes -/

/-- A walk along pointers can follow `NULL`, or not come to an end. -/
inductive Outcome (Value : Type) where
  | done (value : Value)
  | nullFollowed
  | endless
deriving DecidableEq

def Outcome.bind {Value Value' : Type} (outcome : Outcome Value)
    (next : Value → Outcome Value') : Outcome Value' :=
  match outcome with
  | .done value => next value
  | .nullFollowed => .nullFollowed
  | .endless => .endless

/-- `while ((pointer = pointer->next)) ;` and the pointer it leaves. -/
def walkNext (next : Nat → Option Nat) :
    (rounds : Nat) → Nat → Outcome (Option Nat)
  | 0, _ => .endless
  | rounds + 1, pointer =>
      match next pointer with
      | none => .done none
      | some following => walkNext next rounds following

/-! ### Registration -/

structure Registration where
  sd : Nat
  sid : Nat
  func : Nat
  buff : Nat
  cfunc : Nat
  cbuff : Nat
  qd : Nat
deriving DecidableEq

def emptyQueue : DataQueue :=
  { active := 0, link := none, start := none, finish := none, next := none }

def sifSetRpcQueue (rounds : Nat) (qd : Nat) (data : RpcData) :
    Outcome RpcData :=
  let data := data.setQueue qd emptyQueue
  match data.activeQueue with
  | none => .done { data with activeQueue := some qd }
  | some queue =>
      (walkNext (fun pointer => (data.queues pointer).next) rounds queue).bind
        fun
        | none => .nullFollowed
        | some last =>
            .done (data.setQueue last { data.queues last with next := some qd })

def sifRegisterRpc (rounds : Nat) (registration : Registration)
    (data : RpcData) : Outcome RpcData :=
  let sd := registration.sd
  let qd := registration.qd
  let data := data.setServer sd
    { data.servers sd with
      link := none
      next := none
      sid := registration.sid
      func := registration.func
      buff := registration.buff
      cfunc := registration.cfunc
      cbuff := registration.cbuff
      base := qd }
  match (data.queues qd).link with
  | none => .done (data.setQueue qd { data.queues qd with link := some sd })
  | some server =>
      (walkNext (fun pointer => (data.servers pointer).next) rounds
        server).bind fun
        | none => .nullFollowed
        | some last =>
            .done (data.setServer last
              { data.servers last with next := some sd })

/-! ### Looking a service up -/

def searchServers (sid : Nat) (servers : Nat → ServerData) :
    (rounds : Nat) → Option Nat → Outcome (Option Nat)
  | _, none => .done none
  | 0, some _ => .endless
  | rounds + 1, some server =>
      if (servers server).sid = sid then .done (some server)
      else searchServers sid servers rounds (servers server).link

def searchQueues (sid : Nat) (queues : Nat → DataQueue)
    (servers : Nat → ServerData) :
    (rounds : Nat) → Option Nat → Outcome (Option Nat)
  | _, none => .done none
  | 0, some _ => .endless
  | rounds + 1, some queue =>
      (searchServers sid servers (rounds + 1) (queues queue).link).bind fun
        | some server => .done (some server)
        | none => searchQueues sid queues servers rounds (queues queue).next

def searchSvdata (rounds : Nat) (sid : Nat) (data : RpcData) :
    Outcome (Option Nat) :=
  searchQueues sid data.queues data.servers rounds data.activeQueue

def rdataTableLen : Nat := 2048 / 64

def clientTableLen : Nat := 2048 / 64

/-- `_rpc_get_fpacket`: the index of the packet in `rdata_table`. -/
def rpcGetFpacket (data : RpcData) : Nat × RpcData :=
  let index := data.rdataTableIdx % rdataTableLen
  (index, { data with rdataTableIdx := index + 1 })

structure BindPacket where
  sid : Nat
  pktAddr : Nat
  client : Nat

structure BindReply where
  packet : Nat
  pktAddr : Nat
  client : Nat
  cid : Nat
  server : Option Nat
  buff : Nat
  cbuff : Nat
deriving DecidableEq

def requestBind (rounds : Nat) (bind : BindPacket) (data : RpcData) :
    Outcome (BindReply × RpcData) :=
  let (packet, data) := rpcGetFpacket data
  (searchSvdata rounds bind.sid data).bind fun server =>
    let (buff, cbuff) :=
      match server with
      | none => (0, 0)
      | some server =>
          ((data.servers server).buff, (data.servers server).cbuff)
    .done
      ({ packet := packet, pktAddr := bind.pktAddr, client := bind.client
         cid := 0x80000009, server := server, buff := buff, cbuff := cbuff },
        data)

/-! ### Sequences of calls -/

inductive RegistryCall where
  | setRpcQueue (qd : Nat)
  | registerRpc (registration : Registration)
deriving DecidableEq

def RegistryCall.run (rounds : Nat) (data : RpcData) :
    RegistryCall → Outcome RpcData
  | .setRpcQueue qd => sifSetRpcQueue rounds qd data
  | .registerRpc registration => sifRegisterRpc rounds registration data

def runCalls (rounds : Nat) (calls : List RegistryCall) (data : RpcData) :
    Outcome RpcData :=
  calls.foldl (fun outcome call => outcome.bind (call.run rounds ·))
    (.done data)

def queueObjects (calls : List RegistryCall) : List Nat :=
  calls.filterMap fun
    | .setRpcQueue qd => some qd
    | .registerRpc _ => none

def registrations (calls : List RegistryCall) : List Registration :=
  calls.filterMap fun
    | .setRpcQueue _ => none
    | .registerRpc registration => some registration

/-- Distinct objects and identifiers, and every queue is set up before a
server is registered with it. -/
structure ProperCalls (calls : List RegistryCall) : Prop where
  queues : (queueObjects calls).Nodup
  servers : ((registrations calls).map Registration.sd).Nodup
  sids : ((registrations calls).map Registration.sid).Nodup
  setBefore : ∀ front registration back,
    calls = front ++ .registerRpc registration :: back →
      registration.qd ∈ queueObjects front

/-- The registry answers for the registrations that were made. -/
def AnswersRegistered (calls : List RegistryCall) (data : RpcData) : Prop :=
  ∀ sid,
    let registered :=
      (registrations calls).find? fun registration => registration.sid = sid
    searchSvdata (calls.length + 1) sid data =
        .done (registered.map Registration.sd) ∧
      ∀ bind, bind.sid = sid →
        ∃ reply after,
          requestBind (calls.length + 1) bind data = .done (reply, after) ∧
          reply.server = registered.map Registration.sd ∧
          reply.buff = (registered.map Registration.buff).getD 0 ∧
          reply.cbuff = (registered.map Registration.cbuff).getD 0

/-! ### Appending to a list that is not empty -/

theorem Outcome.bind_eq_done {Value Value' : Type} {outcome : Outcome Value}
    {next : Value → Outcome Value'} {value : Value'}
    (finished : outcome.bind next = .done value) :
    ∃ first, outcome = .done first ∧ next first = .done value := by
  cases outcome with
  | done first => exact ⟨first, rfl, finished⟩
  | nullFollowed => cases finished
  | endless => cases finished

/-- The walk along `next` only stops at `NULL`. -/
theorem walkNext_null (next : Nat → Option Nat) (rounds pointer last : Nat) :
    walkNext next rounds pointer ≠ .done (some last) := by
  induction rounds generalizing pointer with
  | zero =>
      intro impossible
      cases impossible
  | succ rounds ih =>
      rw [walkNext]
      cases next pointer with
      | none =>
          intro impossible
          cases impossible
      | some following =>
          exact ih following

/-- So a second queue is never set up, whatever the memory holds. -/
theorem sifSetRpcQueue_occupied (rounds qd queue : Nat) (data after : RpcData)
    (occupied : data.activeQueue = some queue) :
    sifSetRpcQueue rounds qd data ≠ .done after := by
  intro finished
  simp only [sifSetRpcQueue, RpcData.setQueue, occupied] at finished
  obtain ⟨pointer, walk, appended⟩ := Outcome.bind_eq_done finished
  cases pointer with
  | none => cases appended
  | some last => exact walkNext_null _ rounds queue last walk

/-- And a second server is never registered with a queue. -/
theorem sifRegisterRpc_occupied (rounds : Nat) (registration : Registration)
    (server : Nat) (data after : RpcData)
    (occupied : (data.queues registration.qd).link = some server) :
    sifRegisterRpc rounds registration data ≠ .done after := by
  intro finished
  simp only [sifRegisterRpc, RpcData.setServer, occupied] at finished
  obtain ⟨pointer, walk, appended⟩ := Outcome.bind_eq_done finished
  cases pointer with
  | none => cases appended
  | some last => exact walkNext_null _ rounds server last walk

/-! ### Runs -/

theorem runCalls_cons (rounds : Nat) (call : RegistryCall)
    (calls : List RegistryCall) (data : RpcData) :
    runCalls rounds (call :: calls) data =
      (call.run rounds data).bind (runCalls rounds calls) := by
  have stuck (outcome : Outcome RpcData)
      (failed : ∀ next : RpcData → Outcome RpcData,
        outcome.bind next = outcome) :
      calls.foldl (fun outcome call => outcome.bind (call.run rounds ·))
        outcome = outcome := by
    induction calls with
    | nil => rfl
    | cons head rest ih => rw [List.foldl_cons, failed, ih]
  rw [runCalls, List.foldl_cons]
  change calls.foldl _ (call.run rounds data) = _
  cases call.run rounds data with
  | done value => rfl
  | nullFollowed => exact stuck .nullFollowed fun _ => rfl
  | endless => exact stuck .endless fun _ => rfl

theorem runCalls_done {rounds : Nat} {call : RegistryCall}
    {calls : List RegistryCall} {data after : RpcData}
    (ran : runCalls rounds (call :: calls) data = .done after) :
    ∃ middle, call.run rounds data = .done middle ∧
      runCalls rounds calls middle = .done after := by
  rw [runCalls_cons] at ran
  exact Outcome.bind_eq_done ran

theorem runCalls_secondQueue (rounds second queue : Nat)
    (calls : List RegistryCall) (data after : RpcData)
    (occupied : data.activeQueue = some queue) :
    runCalls rounds (.setRpcQueue second :: calls) data ≠ .done after := by
  intro ran
  obtain ⟨middle, first, -⟩ := runCalls_done ran
  exact sifSetRpcQueue_occupied rounds second queue data middle occupied first

theorem runCalls_secondServer (rounds : Nat) (registration : Registration)
    (server : Nat) (calls : List RegistryCall) (data after : RpcData)
    (occupied : (data.queues registration.qd).link = some server) :
    runCalls rounds (.registerRpc registration :: calls) data ≠
      .done after := by
  intro ran
  obtain ⟨middle, first, -⟩ := runCalls_done ran
  exact sifRegisterRpc_occupied rounds registration server data middle occupied
    first

/-- The registry after the first queue, and after its first server. -/
def withQueue (data : RpcData) (qd : Nat) : RpcData :=
  { data.setQueue qd emptyQueue with activeQueue := some qd }

def withServer (data : RpcData) (registration : Registration) : RpcData :=
  (data.setServer registration.sd
    { data.servers registration.sd with
      link := none
      next := none
      sid := registration.sid
      func := registration.func
      buff := registration.buff
      cfunc := registration.cfunc
      cbuff := registration.cbuff
      base := registration.qd }).setQueue registration.qd
    { data.queues registration.qd with link := some registration.sd }

theorem sifSetRpcQueue_first (rounds qd : Nat) (data : RpcData)
    (cleared : data.activeQueue = none) :
    sifSetRpcQueue rounds qd data = .done (withQueue data qd) := by
  simp only [sifSetRpcQueue, RpcData.setQueue, cleared, withQueue]

theorem sifRegisterRpc_first (rounds : Nat) (registration : Registration)
    (data : RpcData)
    (free : (data.queues registration.qd).link = none) :
    sifRegisterRpc rounds registration data =
      .done (withServer data registration) := by
  simp only [sifRegisterRpc, RpcData.setServer, free, withServer]

theorem runCalls_queue (rounds qd : Nat) (calls : List RegistryCall)
    (data : RpcData) (cleared : data.activeQueue = none) :
    runCalls rounds (.setRpcQueue qd :: calls) data =
      runCalls rounds calls (withQueue data qd) := by
  rw [runCalls_cons, RegistryCall.run,
    sifSetRpcQueue_first rounds qd data cleared]
  rfl

theorem runCalls_server (rounds : Nat) (registration : Registration)
    (calls : List RegistryCall) (data : RpcData)
    (cleared : data.activeQueue = none) :
    runCalls rounds
        (.setRpcQueue registration.qd :: .registerRpc registration :: calls)
        data =
      runCalls rounds calls
        (withServer (withQueue data registration.qd) registration) := by
  have free : ((withQueue data registration.qd).queues
      registration.qd).link = none := by
    simp only [withQueue, RpcData.setQueue, Function.update_self, emptyQueue]
  rw [runCalls_queue rounds _ _ data cleared, runCalls_cons,
    RegistryCall.run, sifRegisterRpc_first rounds registration _ free]
  rfl

/-- A bind request is answered with what the search finds. -/
theorem requestBind_eq (rounds : Nat) (bind : BindPacket) (data : RpcData)
    (server : Option Nat)
    (found : searchSvdata rounds bind.sid data = .done server) :
    ∃ reply after,
      requestBind rounds bind data = .done (reply, after) ∧
      reply.server = server ∧
      reply.buff = (server.map fun address =>
        (data.servers address).buff).getD 0 ∧
      reply.cbuff = (server.map fun address =>
        (data.servers address).cbuff).getD 0 := by
  have sameSearch : searchSvdata rounds bind.sid (rpcGetFpacket data).2 =
      .done server := found
  have answered : requestBind rounds bind data =
      .done
        ({ packet := (rpcGetFpacket data).1, pktAddr := bind.pktAddr
           client := bind.client, cid := 0x80000009, server := server
           buff := (server.map fun address =>
            (data.servers address).buff).getD 0
           cbuff := (server.map fun address =>
            (data.servers address).cbuff).getD 0 },
          (rpcGetFpacket data).2) := by
    simp only [requestBind, sameSearch, Outcome.bind]
    cases server with
    | none => rfl
    | some address => rfl
  exact ⟨_, _, answered, rfl, rfl, rfl⟩

/-! ### The registry of one queue -/

theorem answersRegistered_nil (data : RpcData)
    (cleared : data.activeQueue = none) : AnswersRegistered [] data := by
  intro sid
  have found : searchSvdata 1 sid data = .done none := by
    rw [searchSvdata, cleared, searchQueues]
  refine ⟨found, ?_⟩
  rintro bind rfl
  exact requestBind_eq 1 bind data none found

theorem answersRegistered_queue (qd : Nat) (data : RpcData) :
    AnswersRegistered [.setRpcQueue qd] (withQueue data qd) := by
  intro sid
  have found : searchSvdata 2 sid (withQueue data qd) = .done none := by
    simp only [searchSvdata, withQueue, RpcData.setQueue, searchQueues,
      Function.update_self, emptyQueue, searchServers, Outcome.bind]
  refine ⟨found, ?_⟩
  rintro bind rfl
  exact requestBind_eq 2 bind _ none found

theorem answersRegistered_server (registration : Registration)
    (data : RpcData) :
    AnswersRegistered
      [.setRpcQueue registration.qd, .registerRpc registration]
      (withServer (withQueue data registration.qd) registration) := by
  intro sid
  have found : searchSvdata 3 sid
      (withServer (withQueue data registration.qd) registration) =
      .done (if registration.sid = sid then some registration.sd
        else none) := by
    simp only [searchSvdata, withServer, withQueue, RpcData.setQueue,
      RpcData.setServer, searchQueues, Function.update_self, emptyQueue,
      searchServers]
    split
    · rfl
    · rfl
  have expected : (registrations [.setRpcQueue registration.qd,
      .registerRpc registration]).find? (fun registered =>
        registered.sid = sid) =
      if registration.sid = sid then some registration else none := by
    change [registration].find? _ = _
    rw [List.find?_singleton]
    simp only [decide_eq_true_eq]
  simp only [expected]
  by_cases same : registration.sid = sid
  · rw [if_pos same] at found
    simp only [if_pos same]
    refine ⟨found, ?_⟩
    rintro bind rfl
    obtain ⟨reply, after, answered, server, buff, cbuff⟩ :=
      requestBind_eq 3 bind _ _ found
    refine ⟨reply, after, answered, server, ?_, ?_⟩
    · rw [buff]
      simp only [withServer, RpcData.setQueue, RpcData.setServer,
        Option.map_some, Function.update_self]
    · rw [cbuff]
      simp only [withServer, RpcData.setQueue, RpcData.setServer,
        Option.map_some, Function.update_self]
  · rw [if_neg same] at found
    simp only [if_neg same]
    refine ⟨found, ?_⟩
    rintro bind rfl
    exact requestBind_eq 3 bind _ none found

/-- The registry works exactly for one queue with one server at most. -/
theorem registry_answers_iff (calls : List RegistryCall) (data : RpcData)
    (cleared : data.activeQueue = none) (proper : ProperCalls calls) :
    (∃ after, runCalls (calls.length + 1) calls data = .done after ∧
        AnswersRegistered calls after) ↔
      (queueObjects calls).length ≤ 1 ∧
        ∀ qd, ((registrations calls).map Registration.qd).count qd ≤ 1 := by
  match calls, proper with
  | [], _ =>
      refine ⟨fun _ => ⟨by decide, fun qd => Nat.zero_le 1⟩, fun _ => ?_⟩
      exact ⟨data, rfl, answersRegistered_nil data cleared⟩
  | .registerRpc registration :: rest, proper =>
      cases proper.setBefore [] registration rest rfl
  | [.setRpcQueue qd], _ =>
      refine ⟨fun _ => ⟨Nat.le_refl 1, fun qd => Nat.zero_le 1⟩,
        fun _ => ?_⟩
      exact ⟨withQueue data qd, sifSetRpcQueue_first 2 qd data cleared,
        answersRegistered_queue qd data⟩
  | .setRpcQueue qd :: .setRpcQueue second :: rest, _ =>
      constructor
      · rintro ⟨after, ran, _answers⟩
        rw [runCalls_queue _ qd _ data cleared] at ran
        exact (runCalls_secondQueue _ second qd rest _ after rfl ran).elim
      · rintro ⟨single, _⟩
        change (queueObjects rest).length + 2 ≤ 1 at single
        omega
  | [.setRpcQueue qd, .registerRpc registration], proper =>
      obtain rfl : registration.qd = qd := List.mem_singleton.mp
        (proper.setBefore [.setRpcQueue qd] registration [] rfl)
      constructor
      · intro _answers
        refine ⟨Nat.le_refl 1, ?_⟩
        intro qd
        exact Nat.le_trans (List.count_le_length) (Nat.le_refl 1)
      · intro _single
        refine ⟨_, ?_, answersRegistered_server registration data⟩
        exact runCalls_server _ registration [] data cleared
  | .setRpcQueue qd :: .registerRpc registration :: .setRpcQueue second ::
      rest, proper =>
      obtain rfl : registration.qd = qd := List.mem_singleton.mp
        (proper.setBefore [.setRpcQueue qd] registration _ rfl)
      constructor
      · rintro ⟨after, ran, _answers⟩
        rw [runCalls_server _ registration _ data cleared] at ran
        exact (runCalls_secondQueue _ second registration.qd rest _ after rfl
          ran).elim
      · rintro ⟨single, _⟩
        change (queueObjects rest).length + 2 ≤ 1 at single
        omega
  | .setRpcQueue qd :: .registerRpc registration :: .registerRpc second ::
      rest, proper =>
      obtain rfl : registration.qd = qd := List.mem_singleton.mp
        (proper.setBefore [.setRpcQueue qd] registration _ rfl)
      have sameQueue : second.qd = registration.qd := List.mem_singleton.mp
        (proper.setBefore [.setRpcQueue registration.qd,
          .registerRpc registration] second rest rfl)
      constructor
      · rintro ⟨after, ran, _answers⟩
        rw [runCalls_server _ registration _ data cleared] at ran
        refine (runCalls_secondServer _ second registration.sd rest _ after ?_
          ran).elim
        rw [sameQueue]
        simp only [withServer, RpcData.setQueue, Function.update_self]
      · rintro ⟨_, single⟩
        have twice := single registration.qd
        change (registration.qd :: second.qd ::
          (registrations rest).map Registration.qd).count registration.qd ≤ 1
          at twice
        rw [sameQueue, List.count_cons_self, List.count_cons_self] at twice
        omega

def clearedData : RpcData :=
  { activeQueue := none, rdataTableIdx := 0, queues := fun _ => emptyQueue
    servers := fun _ =>
      { sid := 0, func := 0, buff := 0, size := 0, cfunc := 0, cbuff := 0
        client := 0, pktAddr := 0, rpcNumber := 0, receive := 0, rsize := 0
        rmode := 0, rid := 0, link := none, next := none, base := 0 } }

/-- The queue and the server of the sound driver. -/
def soundServer : Registration :=
  { sd := 1, sid := 0x80000704, func := 0x1000, buff := 0x2000, cfunc := 0
    cbuff := 0, qd := 1 }

def soundCalls : List RegistryCall :=
  [.setRpcQueue 1, .registerRpc soundServer]

/-- A queue that is set up by the first call is set up before every other. -/
theorem setBefore_of_queue (qd : Nat) (registered : List Registration)
    (same : ∀ registration ∈ registered, registration.qd = qd) :
    ∀ front registration back,
      .setRpcQueue qd :: registered.map .registerRpc =
          front ++ .registerRpc registration :: back →
        registration.qd ∈ queueObjects front := by
  intro front registration back split
  cases front with
  | nil => cases split
  | cons first front =>
      obtain ⟨rfl, later⟩ := List.cons.inj split
      have member : RegistryCall.registerRpc registration ∈
          registered.map .registerRpc := by
        rw [later]
        exact List.mem_append_right _ List.mem_cons_self
      obtain ⟨other, otherIn, sameCall⟩ := List.mem_map.mp member
      obtain rfl := RegistryCall.registerRpc.inj sameCall
      rw [same other otherIn]
      exact List.mem_cons_self

theorem soundCalls_proper : ProperCalls soundCalls where
  queues := by decide
  servers := by decide
  sids := by decide
  setBefore := setBefore_of_queue 1 [soundServer] (by decide)

theorem soundCalls_answers :
    ∃ after, runCalls 3 soundCalls clearedData = .done after ∧
      AnswersRegistered soundCalls after :=
  (registry_answers_iff soundCalls clearedData rfl soundCalls_proper).mpr
    ⟨by decide, fun qd => List.count_le_length⟩

def secondServer : Registration :=
  { sd := 2, sid := 0x80000705, func := 0x1100, buff := 0x2100, cfunc := 0
    cbuff := 0, qd := 1 }

theorem secondServer_nullFollowed :
    ¬ ∀ calls data, data.activeQueue = none → ProperCalls calls →
      ∃ after, runCalls (calls.length + 1) calls data = .done after ∧
        AnswersRegistered calls after := by
  intro always
  have proper : ProperCalls
      [.setRpcQueue 1, .registerRpc soundServer,
        .registerRpc secondServer] :=
    { queues := by decide
      servers := by decide
      sids := by decide
      setBefore := setBefore_of_queue 1 [soundServer, secondServer]
        (by decide) }
  obtain ⟨after, ran, _answers⟩ := always _ clearedData rfl proper
  have followed : runCalls 4
      [.setRpcQueue 1, .registerRpc soundServer, .registerRpc secondServer]
      clearedData = .nullFollowed := rfl
  change runCalls 4 _ clearedData = _ at ran
  rw [followed] at ran
  cases ran

end KernelReloaded.RpcServer
