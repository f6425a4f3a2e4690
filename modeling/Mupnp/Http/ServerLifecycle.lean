import Mathlib.Data.Nat.Notation
import Mupnp.Foundation.MemoryTrace
import Mupnp.Foundation.ThreadTable
import Mupnp.Foundation.TransitionSystem

/-!
# The threads of an HTTP server

A started server of `http_server.c` in memory, with its accept thread, the client threads that
serve the connections, and the threads of the application that stop and delete the server. A
section under the server mutex or under the state mutex of a thread is one step, and so is every
other statement that looks at the server or that allocates or frees something. A thread that waits
for another one in `mupnp_thread_stop` has no step before that one has ended.

`trace` records every use of an object, and what was allocated and freed. The requests themselves,
the sockets and what the listener answers are left out; a listener may delete its own server.
-/

set_option autoImplicit false
set_option relaxedAutoImplicit false

namespace Mupnp.Http

open Foundation

/-- The objects of a server: itself, its accept thread, the header of the list of its client
threads, and a thread and an `mUpnpHttpServerClientData` for each connection. -/
inductive ServerObject where
  | httpServer | acceptThread | clientThreads
  | client (n : ℕ)
  | clientData (n : ℕ)
  deriving DecidableEq

/-! ### Threads -/

/-- The fields of an `mUpnpThread` that its state mutex protects. -/
structure ThreadFlags where
  runnableFlag : Bool
  isRunning : Bool
  stopWaiting : Bool
  deletePending : Bool

namespace ThreadFlags

/-- `mupnp_thread_new`. -/
def new : ThreadFlags := ⟨false, false, false, false⟩

/-- `mupnp_thread_start`. -/
def started : ThreadFlags := ⟨true, true, false, false⟩

/-- `mupnp_thread_stop` in another thread, up to the wait. -/
def stopRequested (flags : ThreadFlags) : ThreadFlags :=
  { flags with runnableFlag := false, stopWaiting := true }

/-- `mupnp_thread_delete` in the thread itself. -/
def selfDeleted (flags : ThreadFlags) : ThreadFlags :=
  { flags with runnableFlag := false, deletePending := true }

/-- The section of `posix_thread_proc` behind the action. -/
def ended (flags : ThreadFlags) : ThreadFlags :=
  { flags with runnableFlag := false, isRunning := false }

/-- Whether `posix_thread_proc` frees the thread. -/
def destroy (flags : ThreadFlags) : Bool := flags.deletePending && !flags.stopWaiting

end ThreadFlags

/-! ### Where a thread stands -/

/-- Who has called `mupnp_http_server_stop`: the application, `mupnp_http_server_delete` for a
client, `mupnp_http_server_delete` for anybody else, or `mupnp_http_server_close`. -/
inductive StopCall where
  | stop | fromClient | delete | close
  deriving DecidableEq

/-- The next statement of `mupnp_http_server_stop`. A client thread is deleted in two steps; it is
`clearing` when `mupnp_threadlist_delete` finds it in the list. -/
inductive StopStage where
  | testAccept | stopAccept | awaitAccept | deleteAccept | clearAccept
  | testClients | takeClient
  | deleteClient (n : ℕ) (clearing : Bool)
  | joinClient (n : ℕ) (clearing : Bool)
  | deleteList | clearList
  deriving DecidableEq

/-- The next statement of a call that stops or deletes the server. -/
inductive ShutdownPoint where
  | search | unlink
  | stop (call : StopCall) (stage : StopStage)
  | freeServer
  deriving DecidableEq

/-- Where a client thread calls `mupnp_http_server_delete`: in its listener, or behind its last
section. -/
inductive DeleteCall where
  | listener (keepAlive : Bool)
  | action (ownerStopping : Bool)
  deriving DecidableEq

/-- What a client sends next: nothing that can be read, a request without a host, a request for the
listener, or one on which the listener deletes the server. -/
inductive ClientRequest where
  | unreadable | bad
  | served (keepAlive : Bool)
  | deletesServer (keepAlive : Bool)
  deriving DecidableEq

/-- The next statement of a client thread. -/
inductive ClientPoint where
  | idle | beginning | serving
  | handling (request : ClientRequest)
  | listening (keepAlive : Bool)
  | shuttingDown (call : DeleteCall) (point : ShutdownPoint)
  | finishing
  | leaving (ownerStopping deletePending : Bool)
  | ending (ownerStopping : Bool)
  | exiting | destroying | ended
  deriving DecidableEq

instance : Inhabited ClientPoint := ⟨.idle⟩

/-- The next statement of the accept thread. -/
inductive AcceptPoint where
  | opening | testing | accepting
  | adding (n : ℕ)
  | starting (n : ℕ)
  | removing (n : ℕ)
  | discarding (n : ℕ)
  | exiting | destroying | ended
  deriving DecidableEq

/-- The call of the client's thread is over. -/
def DeleteCall.return : DeleteCall → ClientPoint
  | .listener keepAlive => .listening keepAlive
  | .action ownerStopping => .ending ownerStopping

/-- What comes after a call of `mupnp_http_server_stop`. -/
def StopCall.return : StopCall → Option ShutdownPoint
  | .stop | .fromClient => none
  | .delete => some (.stop .close .testAccept)
  | .close => some .freeServer

/-- The stage after a client thread was deleted. -/
def StopStage.afterClient (clearing : Bool) : StopStage :=
  if clearing then .deleteList else .takeClient

/-! ### The server -/

/-- The fields of the server and of its threads. The client threads are numbered in the order in
which they are accepted. `deleteCalled` says that the application has called
`mupnp_http_server_delete`, after which it does not touch the server again, and `stopCompleted` that
some call of `mupnp_http_server_stop` has been carried out. -/
structure ServerFields where
  acceptThread : Bool
  clientThreads : Option (List ℕ)
  deletePending : Bool
  acceptFlags : ThreadFlags
  clientFlags : ℕ → ThreadFlags
  ownerStopping : ℕ → Bool
  accepted : ℕ
  acceptPoint : AcceptPoint
  deleteCalled : Bool
  stopCompleted : Bool

/-- The client threads that are registered with the server. -/
def ServerFields.registered (s : ServerFields) : List ℕ := s.clientThreads.getD []

/-- A server with the threads that work on it. -/
structure HttpServer extends ServerFields where
  clients : ThreadTable ℕ ClientPoint
  application : ThreadTable ℕ (Option ShutdownPoint)
  trace : List (MemoryEvent ServerObject)

/-- What can happen next. -/
inductive ServerAction where
  /-- A thread of the application calls `mupnp_http_server_stop`. -/
  | stop (t : ℕ)
  /-- A thread of the application calls `mupnp_http_server_delete`. -/
  | delete (t : ℕ)
  /-- The next statement of a call of the application. -/
  | application (t : ℕ)
  /-- The next statement of the accept thread; `success` is what the system answers. -/
  | accept (success : Bool)
  /-- The next statement of a client thread; `request` is what its client sends. -/
  | client (n : ℕ) (request : ClientRequest)
  deriving DecidableEq

namespace HttpServer

/-- A server that was just started. -/
def init : HttpServer where
  acceptThread := true
  clientThreads := some []
  deletePending := false
  acceptFlags := ThreadFlags.started
  clientFlags := fun _ ↦ ThreadFlags.new
  ownerStopping := fun _ ↦ false
  accepted := 0
  acceptPoint := .opening
  deleteCalled := false
  stopCompleted := false
  clients := ThreadTable.init
  application := ThreadTable.init
  trace := [.alloc .httpServer, .alloc .acceptThread, .alloc .clientThreads]

def client (s : HttpServer) (n : ℕ) : ClientPoint := s.clients.get n

/-- Reads or writes some objects. -/
def use (s : HttpServer) (objects : List ServerObject) : HttpServer :=
  { s with trace := objects.map .use ++ s.trace }

/-- Frees an object. -/
def free (s : HttpServer) (object : ServerObject) : HttpServer :=
  { s with trace := .free object :: s.trace }

def setClientFlags (s : HttpServer) (n : ℕ) (flags : ThreadFlags) : HttpServer :=
  { s with clientFlags := fun other ↦ if other = n then flags else s.clientFlags other }

def goTo (s : HttpServer) (n : ℕ) (point : ClientPoint) : HttpServer :=
  { s with clients := s.clients.set n point }

/-- The list elements next to a client thread, which `mupnp_list_remove` links to each other. -/
def neighbours (s : HttpServer) (n : ℕ) : List ServerObject :=
  match s.clientThreads with
  | none => []
  | some list =>
    if n ∈ list then
      [(list.takeWhile (· ≠ n)).getLast?.elim .clientThreads .client,
        (list.dropWhile (· ≠ n)).tail.head?.elim .clientThreads .client]
    else []

/-- `mupnp_thread_remove`. -/
def threadRemove (s : HttpServer) (n : ℕ) : HttpServer :=
  { s.use (.client n :: s.neighbours n) with clientThreads := s.clientThreads.map (·.erase n) }

/-- `mupnp_threadlist_add`. -/
def threadListAdd (s : HttpServer) (n : ℕ) : HttpServer :=
  match s.clientThreads with
  | none => s
  | some list =>
    { s.use [.clientThreads, .client n, list.getLast?.elim .clientThreads .client] with
      clientThreads := some (list ++ [n]) }

/-- The elements that `mupnp_http_server_delete` compares with its own thread, up to the first one
that is the same. -/
def searched (self : Option ℕ) : List ℕ → List ℕ
  | [] => []
  | n :: rest => if some n = self then [n] else n :: searched self rest

/-- What the search in `mupnp_http_server_delete` reads. -/
def searchedObjects (s : HttpServer) (self : Option ℕ) : List ServerObject :=
  match s.clientThreads with
  | none => []
  | some list => .clientThreads :: (searched self list).map .client

/-! ### Stopping and deleting -/

/-- A statement of `mupnp_http_server_stop`, run by the client thread `self` or by a thread of the
application, and what the caller does next. -/
def stopStep (s : HttpServer) (self : Option ℕ) (call : StopCall) :
    StopStage → Option (HttpServer × Option ShutdownPoint)
  | .testAccept =>
    some (s.use [.httpServer],
      some (.stop call (if s.acceptThread then .stopAccept else .testClients)))
  | .stopAccept =>
    if s.acceptThread then
      some ({ s.use [.httpServer, .acceptThread] with
        acceptFlags := s.acceptFlags.stopRequested }, some (.stop call .awaitAccept))
    else some (s.use [.httpServer], some (.stop call .deleteAccept))
  | .awaitAccept =>
    if s.acceptFlags.isRunning then none
    else some (s.use [.acceptThread], some (.stop call .deleteAccept))
  | .deleteAccept =>
    if s.acceptThread then
      if s.acceptFlags.isRunning then none
      else
        some ((s.use [.httpServer, .acceptThread]).free .acceptThread,
          some (.stop call .clearAccept))
    else some (s.use [.httpServer], some (.stop call .clearAccept))
  | .clearAccept =>
    some ({ s.use [.httpServer] with acceptThread := false }, some (.stop call .testClients))
  | .testClients =>
    if s.clientThreads.isSome then some (s.use [.httpServer], some (.stop call .takeClient))
    else some ({ s.use [.httpServer] with stopCompleted := true }, call.return)
  | .takeClient =>
    match s.clientThreads with
    | none => some (s.use [.httpServer], some (.stop call .deleteList))
    | some [] => some (s.use [.httpServer, .clientThreads], some (.stop call .deleteList))
    | some (n :: _) =>
      some ({ (s.use [.httpServer, .clientThreads, .clientData n]).threadRemove n with
        ownerStopping := fun other ↦ if other = n then true else s.ownerStopping other },
        some (.stop call (.deleteClient n false)))
  | .deleteClient n clearing =>
    if self = some n then
      some ((s.use [.client n]).setClientFlags n (s.clientFlags n).selfDeleted,
        some (.stop call (.afterClient clearing)))
    else
      some ((s.use [.client n]).setClientFlags n (s.clientFlags n).stopRequested,
        some (.stop call (.joinClient n clearing)))
  | .joinClient n clearing =>
    if (s.clientFlags n).isRunning then none
    else some ((s.use [.client n]).free (.client n), some (.stop call (.afterClient clearing)))
  | .deleteList =>
    match s.clientThreads with
    | none => some (s.use [.httpServer], some (.stop call .clearList))
    | some [] =>
      some ((s.use [.httpServer, .clientThreads]).free .clientThreads,
        some (.stop call .clearList))
    | some (n :: _) =>
      some ((s.use [.httpServer, .clientThreads]).threadRemove n,
        some (.stop call (.deleteClient n true)))
  | .clearList =>
    some ({ s.use [.httpServer] with clientThreads := none, stopCompleted := true }, call.return)

/-- A statement of a call that stops or deletes the server, and what comes next; nothing when the
call is over. -/
def shutdownStep (s : HttpServer) (self : Option ℕ) :
    ShutdownPoint → Option (HttpServer × Option ShutdownPoint)
  | .search =>
    if ∃ n ∈ s.registered, some n = self then
      some ({ s.use (.httpServer :: s.searchedObjects self) with deletePending := true },
        some .unlink)
    else
      some (s.use (.httpServer :: s.searchedObjects self), some (.stop .delete .testAccept))
  | .unlink => some (s.use [.httpServer], some (.stop .fromClient .testAccept))
  | .stop call stage => s.stopStep self call stage
  | .freeServer => some ((s.use [.httpServer]).free .httpServer, none)

/-! ### The threads of the server -/

/-- A statement of `mupnp_http_server_clientthread` and of the end of `posix_thread_proc`. -/
def clientStep (s : HttpServer) (n : ℕ) (request : ClientRequest) :
    ClientPoint → Option HttpServer
  | .idle | .ended => none
  | .beginning => some ((s.use [.client n, .clientData n, .httpServer]).goTo n .serving)
  | .serving =>
    if request = .unreadable then some (s.goTo n .finishing)
    else
      some ((s.use [.client n]).goTo n
        (if (s.clientFlags n).runnableFlag then .handling request else .finishing))
  | .handling .unreadable | .handling .bad => some (s.goTo n .serving)
  | .handling (.served keepAlive) => some ((s.use [.httpServer]).goTo n (.listening keepAlive))
  | .handling (.deletesServer keepAlive) =>
    some ((s.use [.httpServer]).goTo n (.shuttingDown (.listener keepAlive) .search))
  | .listening keepAlive =>
    some ((s.use [.client n]).goTo n
      (if (s.clientFlags n).runnableFlag && keepAlive then .serving else .finishing))
  | .shuttingDown call point =>
    (s.shutdownStep (some n) point).map fun (s', next) ↦
      s'.goTo n (next.elim call.return (.shuttingDown call))
  | .finishing =>
    let locked := s.use [.httpServer, .clientData n]
    some ((if s.ownerStopping n then locked else locked.threadRemove n).goTo n
      (.leaving (s.ownerStopping n) s.deletePending))
  | .leaving ownerStopping deletePending =>
    some (((s.free (.clientData n)).use [.client n]).goTo n
      (if deletePending then .shuttingDown (.action ownerStopping) .search
      else .ending ownerStopping))
  | .ending ownerStopping =>
    if ownerStopping then some (s.goTo n .exiting)
    else
      some (((s.use [.client n]).setClientFlags n (s.clientFlags n).selfDeleted).goTo n .exiting)
  | .exiting =>
    some (((s.use [.client n]).setClientFlags n (s.clientFlags n).ended).goTo n
      (if (s.clientFlags n).destroy then .destroying else .ended))
  | .destroying => some (((s.use [.client n]).free (.client n)).goTo n .ended)

/-- A statement of `mupnp_http_server_thread` and of the end of `posix_thread_proc`. -/
def acceptStep (s : HttpServer) (success : Bool) : AcceptPoint → Option HttpServer
  | .ended => none
  | .opening =>
    some { s.use [.acceptThread, .httpServer] with
      acceptPoint := if success then .testing else .exiting }
  | .testing =>
    some { s.use [.acceptThread] with
      acceptPoint := if s.acceptFlags.runnableFlag then .accepting else .exiting }
  | .accepting =>
    if success then
      some { s with
        trace := [.alloc (.client s.accepted), .alloc (.clientData s.accepted),
          .use .httpServer] ++ s.trace
        accepted := s.accepted + 1
        acceptPoint := .adding s.accepted }
    else some { s with acceptPoint := .exiting }
  | .adding n =>
    some { (s.use [.httpServer]).threadListAdd n with acceptPoint := .starting n }
  | .starting n =>
    if success then
      some ({ (s.use [.client n]).setClientFlags n ThreadFlags.started with
        acceptPoint := .testing }.goTo n .beginning)
    else some { s.use [.client n] with acceptPoint := .removing n }
  | .removing n =>
    some { (s.use [.httpServer]).threadRemove n with acceptPoint := .discarding n }
  | .discarding n =>
    some { ((s.use [.client n]).free (.client n)).free (.clientData n) with
      acceptPoint := .testing }
  | .exiting =>
    some { s.use [.acceptThread] with
      acceptFlags := s.acceptFlags.ended
      acceptPoint := if s.acceptFlags.destroy then .destroying else .ended }
  | .destroying =>
    some { (s.use [.acceptThread]).free .acceptThread with acceptPoint := .ended }

/-- One step; nothing when the thread cannot take it. -/
def step (s : HttpServer) : ServerAction → Option HttpServer
  | .stop t =>
    if s.deleteCalled || (s.application.get t).isSome then none
    else some { s with application := s.application.set t (some (.stop .stop .testAccept)) }
  | .delete t =>
    if s.deleteCalled || (s.application.get t).isSome then none
    else
      some { s with
        application := s.application.set t (some .search)
        deleteCalled := true }
  | .application t =>
    (s.application.get t).bind fun point ↦
      (s.shutdownStep none point).map fun (s', next) ↦
        { s' with application := s'.application.set t next }
  | .accept success => s.acceptStep success s.acceptPoint
  | .client n request => s.clientStep n request (s.client n)

end HttpServer

/-- The threads of a server as a transition system. -/
def serverLifecycle : TransitionSystem HttpServer ServerAction := ⟨HttpServer.step⟩

end Mupnp.Http
