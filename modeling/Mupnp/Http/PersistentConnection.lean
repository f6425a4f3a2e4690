import Mathlib.Data.List.Basic
import Mupnp.Foundation.OwnershipLedger
import Mupnp.Foundation.RecencyOrder
import Mupnp.Foundation.TransitionSystem
import Mupnp.Util.StringFunction

/-!
# The cache of persistent connections

`http/http_persistent_connection.c` after its initialisation: a list of entries, at most
`MUPNP_HTTP_PERSISTENT_CACHE_SIZE` of them, each with the host and port that it is for, the handle
of a connection and the time of its last use. Entries are added at the end of the list, and the
first one is dropped when there is no room. The clock is what each call reads of it, and may go
either way. The handles that were closed and deleted are kept in `released`.

`History` adds what a run is judged by: the keys in the order in which they were used, and the
handles that were ever put. A put that fails to allocate an entry is left out.
-/

set_option autoImplicit false
set_option relaxedAutoImplicit false

namespace Mupnp.Http

open Foundation Util

/-- `MUPNP_HTTP_PERSISTENT_CACHE_SIZE`. -/
def persistentCacheSize : ℕ := 5

/-- `MUPNP_HTTP_PERSISTENT_TIMEOUT_PERIOD`. -/
def persistentTimeoutPeriod : ℤ := 60

/-- The host and the port of a connection. -/
abbrev ConnectionKey := CString × ℤ

/-- An `mUpnpHttpPersistentConnection`. -/
structure PersistentConnection (α : Type*) where
  host : CString
  port : ℤ
  cacheData : α
  timestamp : ℤ
  deriving DecidableEq

/-- The list `cache`, and the handles that `mupnp_http_persistentconnection_delete` has closed, the
latest one first. -/
structure ConnectionCache (α : Type*) where
  entries : List (PersistentConnection α)
  released : List α
  deriving DecidableEq

variable {α : Type*}

namespace PersistentConnection

def key (node : PersistentConnection α) : ConnectionKey := (node.host, node.port)

/-- The test for a host and a port. -/
def isFor (host : CString) (port : ℤ) (node : PersistentConnection α) : Bool :=
  decide (node.host = host) && decide (node.port = port)

/-- The time of an entry has run out. -/
def isExpired (sysTime : ℤ) (node : PersistentConnection α) : Bool :=
  decide (node.timestamp + persistentTimeoutPeriod < sysTime)

theorem isFor_iff {host : CString} {port : ℤ} {node : PersistentConnection α} :
    node.isFor host port = true ↔ node.key = (host, port) := by
  rw [isFor, Bool.and_eq_true, decide_eq_true_eq, decide_eq_true_eq, key, Prod.mk.injEq]

end PersistentConnection

open PersistentConnection

namespace ConnectionCache

def empty : ConnectionCache α := ⟨[], []⟩

def keys (cache : ConnectionCache α) : List ConnectionKey := cache.entries.map key

def handles (cache : ConnectionCache α) : List α := cache.entries.map cacheData

/-- `mupnp_http_persistentconnection_delete`. -/
def delete (cache : ConnectionCache α) (node : PersistentConnection α) : ConnectionCache α :=
  { cache with released := node.cacheData :: cache.released }

/-- The first loop of `mupnp_http_persistentconnection_get`, for at most `turns` turns: each removes
the first entry whose time has run out. -/
def clearExpired (sysTime : ℤ) : (turns : ℕ) → ConnectionCache α → ConnectionCache α
  | 0, cache => cache
  | turns + 1, cache =>
    match cache.entries.find? (isExpired sysTime) with
    | none => cache
    | some node =>
      clearExpired sysTime turns
        (delete { cache with entries := cache.entries.eraseP (isExpired sysTime) } node)

/-- `mupnp_http_persistentconnection_get`, which reads the clock when it starts and again when it
has found an entry. -/
def get (cache : ConnectionCache α) (host : CString) (port sysTime now : ℤ) :
    Option α × ConnectionCache α :=
  let cache := clearExpired sysTime cache.entries.length cache
  match cache.entries.find? (isFor host port) with
  | some node =>
    (some node.cacheData,
      { cache with
        entries := cache.entries.eraseP (isFor host port) ++ [{ node with timestamp := now }] })
  | none => (none, cache)

/-- `mupnp_http_persistentconnection_put`, with a handle or without one. -/
def put [DecidableEq α] (cache : ConnectionCache α) (host : CString) (port : ℤ) (data : Option α)
    (now : ℤ) : ConnectionCache α :=
  match cache.entries.find? (isFor host port) with
  | some node =>
    if data = some node.cacheData then
      { cache with
        entries := cache.entries.modify (cache.entries.findIdx (isFor host port))
          fun node ↦ { node with timestamp := now } }
    else
      let cache := { cache with entries := cache.entries.eraseP (isFor host port) }
      match data with
      | some data => { cache with entries := cache.entries ++ [⟨host, port, data, now⟩] }
      | none => cache.delete node
  | none =>
    let cache :=
      if persistentCacheSize ≤ cache.entries.length then
        match cache.entries with
        | [] => cache
        | oldest :: rest => delete { cache with entries := rest } oldest
      else cache
    match data with
    | some data => { cache with entries := cache.entries ++ [⟨host, port, data, now⟩] }
    | none => cache

end ConnectionCache

/-! ### Runs -/

/-- A call of one of the two functions, with what it reads of the clock. -/
inductive CacheCall (α : Type*) where
  | get (host : CString) (port sysTime now : ℤ)
  | put (host : CString) (port : ℤ) (data : Option α) (now : ℤ)
  deriving DecidableEq

namespace CacheCall

def key : CacheCall α → ConnectionKey
  | get host port _ _ => (host, port)
  | put host port _ _ => (host, port)

/-- The clock when the call starts. -/
def clock : CacheCall α → ℤ
  | get _ _ sysTime _ => sysTime
  | put _ _ _ now => now

/-- The handle that is put. -/
def data : CacheCall α → Option α
  | get .. => none
  | put _ _ data _ => data

end CacheCall

/-- The cache after some calls, with the keys that were used, the latest one first, and the handles
that were ever put. -/
structure History (α : Type*) where
  cache : ConnectionCache α
  uses : List ConnectionKey
  put : List α

namespace History

variable [DecidableEq α]

def empty : History α := ⟨.empty, [], []⟩

/-- A call. A key is used by a get that finds a connection and by a put of a connection. -/
def step (history : History α) : CacheCall α → History α
  | .get host port sysTime now =>
    let result := history.cache.get host port sysTime now
    { history with
      cache := result.2
      uses := if result.1.isSome then (host, port) :: history.uses else history.uses }
  | .put host port data now =>
    { cache := history.cache.put host port data now
      uses := if data.isSome then (host, port) :: history.uses else history.uses
      put := data.toList.filter (fun handle ↦ decide (handle ∉ history.put)) ++ history.put }

/-- The calls as a transition system. -/
def system : TransitionSystem (History α) (CacheCall α) where
  step := fun history call ↦ some (history.step call)

end History

end Mupnp.Http
