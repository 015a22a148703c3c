/-
Call requests on the server side of the SIF RPC layer.

`_request_call` runs in interrupt context.  It stores the request in the server
it names, takes the first server of the queue and executes it at once, so the
function of a server runs inside `_request_call`; requests that arrive while it
runs are handled inside it.  The run of a function is therefore two steps, the
call and the reply, with any number of requests between them.

The fields `received`, `executed` and `replies` are records of the run and are
never read by the code.  The cache is left out.
-/

import KernelReloaded.Core.Transition
import KernelReloaded.Sbios.RpcServers

namespace KernelReloaded.RpcServer

/-! ### Requests and replies -/

structure CallRequest where
  recId : BitVec 32
  pktAddr : Nat
  client : Nat
  rpcNumber : Int
  sendSize : Int
  receive : Nat
  recvSize : Int
  rmode : Int
  server : Nat
deriving DecidableEq

/-- The fields of the server a request is copied to. -/
def ServerData.store (server : ServerData) (request : CallRequest) :
    ServerData :=
  { server with
    pktAddr := request.pktAddr
    client := request.client
    rpcNumber := request.rpcNumber
    size := request.sendSize
    receive := request.receive
    rsize := request.recvSize
    rmode := request.rmode
    rid := request.recId }

/-- The request that stands in a server. -/
def ServerData.request (server : ServerData) (address : Nat) : CallRequest :=
  { recId := server.rid
    pktAddr := server.pktAddr
    client := server.client
    rpcNumber := server.rpcNumber
    sendSize := server.size
    receive := server.receive
    recvSize := server.rsize
    rmode := server.rmode
    server := address }

/-- What `SifExecRequest` calls, with everything that stands in the server. -/
structure Execution where
  request : CallRequest
  func : Nat
  buff : Nat
deriving DecidableEq

/-- A packet of `rdata_table` or of `client_table`. -/
inductive ReplyPacket where
  | rdata (index : Nat)
  | client (index : Nat)
deriving DecidableEq

def ReplyPacket.InTable : ReplyPacket → Prop
  | .rdata index => index < rdataTableLen
  | .client index => index < clientTableLen

/-- The last transfer of a reply: the result, or the packet itself. -/
inductive ReplyTransfer where
  | result (source destination : Nat) (size : Int)
  | packet (destination : Nat)
deriving DecidableEq

structure Reply where
  /-- The request whose execution ends here. -/
  request : CallRequest
  packet : ReplyPacket
  client : Nat
  cid : Nat
  /-- The command for a reply in `rmode`. -/
  sendCmd : Option (Nat × Nat × Int)
  transfer : Option ReplyTransfer
deriving DecidableEq

/-! ### The source functions -/

def rpcGetFpacket2 (rid : Nat) (data : RpcData) : ReplyPacket × RpcData :=
  if rid < clientTableLen then
    let (index, data) := rpcGetFpacket data
    (.rdata index, data)
  else (.client rid, data)

/-- The packet `SifExecRequest` takes for the reply. -/
def replyPacket (rid : BitVec 32) (data : RpcData) : ReplyPacket × RpcData :=
  if rid &&& 4 ≠ 0 then
    rpcGetFpacket2 ((rid >>> 16) &&& 0xffff).toNat data
  else
    let (index, data) := rpcGetFpacket data
    (.rdata index, data)

def sifGetNextRequest (qd : Nat) (data : RpcData) : Option Nat × RpcData :=
  let queue := data.queues qd
  match queue.start with
  | none => (none, data.setQueue qd { queue with active := 1 })
  | some server =>
      (some server,
        data.setQueue qd
          { queue with active := 0, start := (data.servers server).next })

/-- `_request_call` up to the choice of the server to execute.  `none` when it
follows `NULL`. -/
def queueRequest (request : CallRequest) (data : RpcData) :
    Option RpcData :=
  let server := request.server
  let base := (data.servers server).base
  let queue := data.queues base
  let linked : Option (RpcData × DataQueue) :=
    match queue.start, queue.finish with
    | none, _ => some (data, { queue with start := some server })
    | some _, none => none
    | some _, some last =>
        some (data.setServer last
          { data.servers last with link := some server }, queue)
  linked.map fun (data, queue) =>
    (data.setQueue base { queue with finish := some server }).setServer server
      ((data.servers server).store request)

structure RequestState where
  data : RpcData
  /-- The executions in progress, the innermost first. -/
  running : List Execution
  received : List CallRequest
  executed : List Execution
  replies : List Reply

def startExecution (server : Nat) (state : RequestState) : RequestState :=
  let data := state.data.servers server
  let execution : Execution :=
    { request := data.request server, func := data.func, buff := data.buff }
  { state with
    running := execution :: state.running
    executed := state.executed ++ [execution] }

def requestCall (request : CallRequest) (state : RequestState) :
    Option RequestState :=
  (queueRequest request state.data).map fun data =>
    let (next, data) :=
      sifGetNextRequest (data.servers request.server).base data
    let state :=
      { state with data := data, received := state.received ++ [request] }
    match next with
    | none => state
    | some server => startExecution server state

/-- The reply of `SifExecRequest` to what stands in the server when the function
has returned `rec`. -/
def buildReply (rec : Nat) (sendOk : Bool) (packet : ReplyPacket)
    (stored request : CallRequest) : Reply :=
  { request := request
    packet := packet
    client := stored.client
    cid := 0x8000000a
    sendCmd :=
      if stored.rmode ≠ 0 then some (rec, stored.receive, stored.recvSize)
      else none
    transfer :=
      if stored.rmode ≠ 0 ∧ sendOk = false then none
      else if stored.recvSize ≠ 0 then
        some (.result rec stored.receive stored.recvSize)
      else some (.packet stored.pktAddr) }

/-- The rest of `SifExecRequest`.  It reads the fields of the server again. -/
def finishExecution (rec : Nat) (sendOk : Bool) (execution : Execution)
    (state : RequestState) : RequestState :=
  let address := execution.request.server
  let stored := (state.data.servers address).request address
  let (packet, data) := replyPacket stored.recId state.data
  { state with
    data := data
    replies := state.replies ++
      [buildReply rec sendOk packet stored execution.request] }

/-! ### The machine -/

/-- The servers that requests can name.  Each stands as `SifRegisterRpc` has
set it up, in a queue without a request. -/
structure ServerTable where
  data : RpcData
  registered : List Nat
  unlinked : ∀ server ∈ registered, (data.servers server).next = none
  idle : ∀ server ∈ registered,
    (data.queues (data.servers server).base).start = none

inductive RequestEvent where
  | receive (request : CallRequest)
  | finish (rec : Nat) (sendOk : Bool)

def requestStep (table : ServerTable) (state : RequestState) :
    RequestEvent → Option RequestState
  | .receive request =>
      if request.server ∈ table.registered then requestCall request state
      else none
  | .finish rec sendOk =>
      match state.running with
      | [] => none
      | execution :: running =>
          some (finishExecution rec sendOk execution
            { state with running := running })

def requestMachine (table : ServerTable) :
    Machine RequestState RequestEvent :=
  { initial :=
      { data := table.data, running := [], received := [], executed := []
        replies := [] }
    step := requestStep table }

/-! ### What the layer promises -/

/-- The reply that belongs to a request. -/
structure Reply.Answers (reply : Reply) : Prop where
  inTable : reply.packet.InTable
  client : reply.client = reply.request.client
  sendCmd : ∀ rec receive size, reply.sendCmd = some (rec, receive, size) →
    reply.request.rmode ≠ 0 ∧ receive = reply.request.receive ∧
      size = reply.request.recvSize
  result : ∀ rec receive size,
    reply.transfer = some (.result rec receive size) →
      reply.request.recvSize ≠ 0 ∧ receive = reply.request.receive ∧
        size = reply.request.recvSize
  packetTo : ∀ destination, reply.transfer = some (.packet destination) →
    reply.request.recvSize = 0 ∧ destination = reply.request.pktAddr

structure OrderlyRequests (table : ServerTable) (state : RequestState) :
    Prop where
  inOrder : state.executed.map Execution.request = state.received
  ownServer : ∀ execution ∈ state.executed,
    execution.func = (table.data.servers execution.request.server).func ∧
      execution.buff = (table.data.servers execution.request.server).buff
  onceEach : (state.replies.map Reply.request ++
    state.running.map Execution.request).Perm state.received
  emptyQueue : ∀ server ∈ table.registered,
    (state.data.queues (table.data.servers server).base).start = none
  answers : ∀ reply ∈ state.replies, reply.Answers

/-- The packet number of a request fits, and no earlier request of the same
server is in progress. -/
def RequestMet (state : RequestState) : RequestEvent → Prop
  | .receive request =>
      (request.recId &&& 4 ≠ 0 →
        ((request.recId >>> 16) &&& 0xffff).toNat < clientTableLen) ∧
      ∀ execution ∈ state.running,
        execution.request.server ≠ request.server
  | .finish _ _ => True

/-! ### One request -/

theorem request_store (server : ServerData) (request : CallRequest) :
    (server.store request).request request.server = request := rfl

/-- A request to a server of an idle queue is executed at once, and leaves the
queue idle. -/
theorem requestCall_idle (request : CallRequest) (state : RequestState)
    (idle : (state.data.queues
      (state.data.servers request.server).base).start = none)
    (unlinked : (state.data.servers request.server).next = none) :
    ∃ queue, queue.start = none ∧
      requestCall request state = some
        { data :=
            { state.data with
              queues := Function.update state.data.queues
                (state.data.servers request.server).base queue
              servers := Function.update state.data.servers request.server
                ((state.data.servers request.server).store request) }
          running :=
            { request := request
              func := (state.data.servers request.server).func
              buff := (state.data.servers request.server).buff } ::
              state.running
          received := state.received ++ [request]
          executed := state.executed ++
            [{ request := request
               func := (state.data.servers request.server).func
               buff := (state.data.servers request.server).buff }]
          replies := state.replies } := by
  refine ⟨{ state.data.queues (state.data.servers request.server).base with
    active := 0, start := none, finish := some request.server }, rfl, ?_⟩
  simp only [requestCall, queueRequest, idle, Option.map_some,
    sifGetNextRequest, RpcData.setQueue, RpcData.setServer,
    Function.update_self, startExecution, ServerData.store,
    ServerData.request, unlinked, Function.update_idem]

theorem rpcGetFpacket_lt (data : RpcData) :
    (rpcGetFpacket data).1 < rdataTableLen :=
  Nat.mod_lt _ (by decide)

theorem replyPacket_inTable (rid : BitVec 32) (data : RpcData)
    (fits : rid &&& 4 ≠ 0 →
      ((rid >>> 16) &&& 0xffff).toNat < clientTableLen) :
    (replyPacket rid data).1.InTable := by
  rw [replyPacket]
  split
  · rename_i numbered
    rw [rpcGetFpacket2, if_pos (fits numbered)]
    exact rpcGetFpacket_lt data
  · exact rpcGetFpacket_lt data

/-- Taking a packet moves the index of `rdata_table` only. -/
theorem replyPacket_objects (rid : BitVec 32) (data : RpcData) :
    (replyPacket rid data).2.queues = data.queues ∧
      (replyPacket rid data).2.servers = data.servers := by
  rw [replyPacket]
  split
  · rw [rpcGetFpacket2]
    split
    · exact ⟨rfl, rfl⟩
    · exact ⟨rfl, rfl⟩
  · exact ⟨rfl, rfl⟩

/-- A reply to the request that still stands in the server. -/
theorem buildReply_answers (rec : Nat) (sendOk : Bool) (packet : ReplyPacket)
    (request : CallRequest) (inTable : packet.InTable) :
    (buildReply rec sendOk packet request request).Answers where
  inTable := inTable
  client := rfl
  sendCmd := by
    intro result receive size sent
    simp only [buildReply] at sent
    split at sent
    · rename_i mode
      cases sent
      exact ⟨mode, rfl, rfl⟩
    · cases sent
  result := by
    intro result receive size sent
    simp only [buildReply] at sent
    split at sent
    · cases sent
    · split at sent
      · rename_i sized
        cases sent
        exact ⟨sized, rfl, rfl⟩
      · cases sent
  packetTo := by
    intro destination sent
    simp only [buildReply] at sent
    split at sent
    · cases sent
    · split at sent
      · cases sent
      · rename_i unsized
        cases sent
        exact ⟨Decidable.not_not.mp unsized, rfl⟩

/-! ### The invariant -/

structure RequestInv (table : ServerTable) (state : RequestState) : Prop where
  orderly : OrderlyRequests table state
  kept : ∀ server ∈ table.registered,
    (state.data.servers server).next = none ∧
      (state.data.servers server).base = (table.data.servers server).base ∧
      (state.data.servers server).func = (table.data.servers server).func ∧
      (state.data.servers server).buff = (table.data.servers server).buff
  held : ∀ execution ∈ state.running,
    (state.data.servers execution.request.server).request
      execution.request.server = execution.request
  fits : ∀ execution ∈ state.running, execution.request.recId &&& 4 ≠ 0 →
    ((execution.request.recId >>> 16) &&& 0xffff).toNat < clientTableLen

theorem requestInv_initial (table : ServerTable) :
    RequestInv table (requestMachine table).initial where
  orderly :=
    { inOrder := rfl
      ownServer := by
        intro execution impossible
        cases impossible
      onceEach := List.Perm.refl []
      emptyQueue := table.idle
      answers := by
        intro reply impossible
        cases impossible }
  kept := fun server member => ⟨table.unlinked server member, rfl, rfl, rfl⟩
  held := by
    intro execution impossible
    cases impossible
  fits := by
    intro execution impossible
    cases impossible

theorem receive_inv (table : ServerTable) {state next : RequestState}
    (inv : RequestInv table state) (request : CallRequest)
    (member : request.server ∈ table.registered)
    (met : RequestMet state (.receive request))
    (called : requestCall request state = some next) :
    RequestInv table next := by
  obtain ⟨unlinked, base, func, buff⟩ := inv.kept request.server member
  have idle := inv.orderly.emptyQueue request.server member
  rw [← base] at idle
  obtain ⟨queue, emptied, stepped⟩ :=
    requestCall_idle request state idle unlinked
  rw [stepped] at called
  obtain rfl := Option.some.inj called
  obtain ⟨fits, apart⟩ := met
  refine
    { orderly :=
        { inOrder := ?_
          ownServer := ?_
          onceEach := ?_
          emptyQueue := ?_
          answers := inv.orderly.answers }
      kept := ?_
      held := ?_
      fits := ?_ }
  · rw [List.map_append, inv.orderly.inOrder]
    rfl
  · intro execution executed
    rcases List.mem_append.mp executed with before | now
    · exact inv.orderly.ownServer execution before
    · obtain rfl := List.mem_singleton.mp now
      exact ⟨func, buff⟩
  · change (state.replies.map Reply.request ++
      (request :: state.running.map Execution.request)).Perm
        (state.received ++ [request])
    refine List.perm_middle.trans ?_
    refine (inv.orderly.onceEach.cons request).trans ?_
    exact (List.perm_append_singleton request state.received).symm
  · intro server registered
    change (Function.update state.data.queues
      (state.data.servers request.server).base queue
      (table.data.servers server).base).start = none
    by_cases same : (table.data.servers server).base =
        (state.data.servers request.server).base
    · rw [same, Function.update_self]
      exact emptied
    · rw [Function.update_of_ne same]
      exact inv.orderly.emptyQueue server registered
  · intro server registered
    change (Function.update state.data.servers request.server _
      server).next = none ∧ _
    by_cases same : server = request.server
    · subst same
      simp only [Function.update_self]
      exact ⟨unlinked, base, func, buff⟩
    · simp only [Function.update_of_ne same]
      exact inv.kept server registered
  · intro execution running
    rcases List.mem_cons.mp running with rfl | before
    · simp only [Function.update_self]
      exact request_store _ request
    · simp only [Function.update_of_ne (apart execution before)]
      exact inv.held execution before
  · intro execution running
    rcases List.mem_cons.mp running with rfl | before
    · exact fits
    · exact inv.fits execution before

theorem finish_inv (table : ServerTable) {state : RequestState}
    (inv : RequestInv table state) (rec : Nat) (sendOk : Bool)
    (execution : Execution) (running : List Execution)
    (innermost : state.running = execution :: running) :
    RequestInv table (finishExecution rec sendOk execution
      { state with running := running }) := by
  have first : execution ∈ state.running := by
    rw [innermost]
    exact List.mem_cons_self
  have others : ∀ other ∈ running, other ∈ state.running := by
    intro other member
    rw [innermost]
    exact List.mem_cons_of_mem execution member
  have held := inv.held execution first
  have fits := inv.fits execution first
  obtain ⟨sameQueues, sameServers⟩ :=
    replyPacket_objects execution.request.recId state.data
  simp only [finishExecution, held]
  refine
    { orderly :=
        { inOrder := inv.orderly.inOrder
          ownServer := inv.orderly.ownServer
          onceEach := ?_
          emptyQueue := ?_
          answers := ?_ }
      kept := ?_
      held := ?_
      fits := fun other member => inv.fits other (others other member) }
  · have once := inv.orderly.onceEach
    rw [innermost, List.map_cons] at once
    rw [List.map_append, List.append_assoc]
    exact once
  · simp only [sameQueues]
    exact inv.orderly.emptyQueue
  · intro reply member
    rcases List.mem_append.mp member with before | now
    · exact inv.orderly.answers reply before
    · obtain rfl := List.mem_singleton.mp now
      exact buildReply_answers rec sendOk _ execution.request
        (replyPacket_inTable _ _ fits)
  · simp only [sameServers]
    exact inv.kept
  · simp only [sameServers]
    exact fun other member => inv.held other (others other member)

theorem requestStep_inv (table : ServerTable) {state next : RequestState}
    {event : RequestEvent} (inv : RequestInv table state)
    (met : RequestMet state event)
    (stepped : requestStep table state event = some next) :
    RequestInv table next := by
  cases event with
  | receive request =>
      simp only [requestStep] at stepped
      split at stepped
      · rename_i member
        exact receive_inv table inv request member met stepped
      · cases stepped
  | finish rec sendOk =>
      cases innermost : state.running with
      | nil =>
          simp only [requestStep, innermost] at stepped
          cases stepped
      | cons execution running =>
          simp only [requestStep, innermost] at stepped
          obtain rfl := Option.some.inj stepped
          exact finish_inv table inv rec sendOk execution running innermost

/-- In every run whose requests meet the condition, every request is executed
once, in order and with its own arguments, and answered as it asked. -/
theorem requests_orderly (table : ServerTable) (state : RequestState)
    (reached : (requestMachine table).Reach RequestMet state) :
    OrderlyRequests table state := by
  have inv : RequestInv table state :=
    reached.invariant (requestInv_initial table)
      fun _ _ _ before met stepped =>
        requestStep_inv table before met stepped
  exact inv.orderly

/-! ### Two servers -/

def twoServers : ServerTable :=
  { data := clearedData
    registered := [1, 2]
    unlinked := fun _ _ => rfl
    idle := fun _ _ => rfl }

def someRequest (server client : Nat) (recId : BitVec 32) : CallRequest :=
  { recId := recId, pktAddr := 0x100, client := client, rpcNumber := 1
    sendSize := 16, receive := 0x200, recvSize := 0, rmode := 0
    server := server }

instance (state : RequestState) (event : RequestEvent) :
    Decidable (RequestMet state event) :=
  match event with
  | .receive _ => inferInstanceAs (Decidable (_ ∧ _))
  | .finish _ _ => isTrue trivial

/-- A request to the second server while the function of the first runs. -/
def nestedRun : List RequestEvent :=
  [.receive (someRequest 1 10 0x00010005), .receive (someRequest 2 20 0),
    .finish 0 true, .finish 0 true]

theorem nestedRun_orderly :
    ∃ state, (requestMachine twoServers).Reach RequestMet state ∧
      state.received = [someRequest 1 10 0x00010005, someRequest 2 20 0] ∧
      state.running = [] ∧ OrderlyRequests twoServers state := by
  have ran : ((requestMachine twoServers).follow RequestMet nestedRun
      (requestMachine twoServers).initial).map (fun state =>
        (state.received, state.running)) =
      some ([someRequest 1 10 0x00010005, someRequest 2 20 0], []) := by
    decide +kernel
  obtain ⟨state, followed, records⟩ := Option.map_eq_some_iff.mp ran
  have reached := Machine.Reach.follow nestedRun .initial followed
  obtain ⟨received, running⟩ := Prod.mk.inj records
  exact ⟨state, reached, received, running,
    requests_orderly twoServers state reached⟩

/-- A packet number behind the end of `client_table` is used all the same. -/
theorem largePacketNumber_outside :
    ¬ ∀ table state,
      (requestMachine table).Reach (fun _ _ => True) state →
        OrderlyRequests table state := by
  intro always
  have ran : ((requestMachine twoServers).follow (fun _ _ => True)
      [.receive (someRequest 1 10 0x00200005), .finish 0 true]
      (requestMachine twoServers).initial).map (fun state =>
        state.replies.map Reply.packet) =
      some [.client 32] := by
    decide +kernel
  obtain ⟨state, followed, packets⟩ := Option.map_eq_some_iff.mp ran
  have orderly := always twoServers state
    (Machine.Reach.follow _ .initial followed)
  obtain ⟨reply, member, outside⟩ : ∃ reply ∈ state.replies,
      reply.packet = .client 32 := by
    apply List.mem_map.mp
    rw [packets]
    exact List.mem_cons_self
  have inside := (orderly.answers reply member).inTable
  rw [outside] at inside
  exact Nat.lt_irrefl 32 inside

end KernelReloaded.RpcServer
