import HttpService.Allocation
import HttpService.Limits
import HttpService.View.Request
import HttpService.View.Response

/-! Pools of views that are used again. Taking one never waits: an empty pool makes a new instance, and a full
one lets go of what is given back. -/

namespace HttpService

structure Pool (α : Type) where
  capacity : Nat
  idle : List α
  created : Nat
deriving DecidableEq

structure PoolStats where
  created : Nat
  idle : Nat
deriving DecidableEq, Repr

namespace Pool

variable {α : Type}

/-- Every pool holds at least one instance. -/
def new (capacity : Nat) : Pool α := ⟨max capacity 1, [], 0⟩

def checkout (pool : Pool α) (fresh : α) : α × Pool α :=
  match pool.idle with
  | [] => (fresh, { pool with created := pool.created + 1 })
  | oldest :: rest => (oldest, { pool with idle := rest })

def checkin (pool : Pool α) (returned : α) : Pool α :=
  if pool.idle.length < pool.capacity then { pool with idle := pool.idle ++ [returned] } else pool

def prewarm (pool : Pool α) (count : Nat) (fresh : α) : Pool α :=
  let made := min count pool.capacity
  { pool with idle := pool.idle ++ List.replicate made fresh, created := pool.created + made }

def stats (pool : Pool α) : PoolStats := ⟨pool.created, pool.idle.length⟩

end Pool

structure Pools where
  request : Pool RequestView
  response : Pool (ResponseView Empty)
  adapter : Pool (ResponseAdapter Empty)
  fields : Pool FieldsView
  url : Pool UrlView
deriving DecidableEq

structure PoolsStats where
  request : PoolStats
  response : PoolStats
  adapter : PoolStats
  fields : PoolStats
  url : PoolStats
deriving DecidableEq, Repr

namespace Pools

def doubled (size : Nat) : Nat := min (size * 2) (UInt64.size - 1)

/-- Every request takes two views of fields and one of everything else. -/
def new (limits : PoolLimits) : Pools where
  request := (Pool.new limits.capacity).prewarm limits.prewarm .unbound
  response := (Pool.new limits.capacity).prewarm limits.prewarm .unbound
  adapter := (Pool.new limits.capacity).prewarm limits.prewarm .unbound
  fields := (Pool.new (doubled limits.capacity)).prewarm (doubled limits.prewarm) .unbound
  url := (Pool.new limits.capacity).prewarm limits.prewarm .unbound

def placeSize : Nat := 136

def reserve (limits : PoolLimits) : Except String Pools := do
  Allocation.reserve limits.capacity placeSize
  return new limits

def stats (pools : Pools) : PoolsStats :=
  ⟨pools.request.stats, pools.response.stats, pools.adapter.stats, pools.fields.stats, pools.url.stats⟩

structure Lease where
  requestFields : FieldsView
  url : UrlView
  responseFields : FieldsView
  adapter : ResponseAdapter Empty
  request : RequestView
  response : ResponseView Empty
deriving DecidableEq

def Lease.fresh : Lease := ⟨.unbound, .unbound, .unbound, .unbound, .unbound, .unbound⟩

def checkout (pools : Pools) : Lease × Pools :=
  let (requestFields, fieldsPool) := pools.fields.checkout .unbound
  let (url, urlPool) := pools.url.checkout .unbound
  let (responseFields, fieldsPool) := fieldsPool.checkout .unbound
  let (adapter, adapterPool) := pools.adapter.checkout .unbound
  let (request, requestPool) := pools.request.checkout .unbound
  let (response, responsePool) := pools.response.checkout .unbound
  (⟨requestFields, url, responseFields, adapter, request, response⟩,
    ⟨requestPool, responsePool, adapterPool, fieldsPool, urlPool⟩)

def checkin (pools : Pools) (lease : Lease) : Pools where
  request := pools.request.checkin lease.request
  response := pools.response.checkin lease.response
  adapter := pools.adapter.checkin lease.adapter
  fields := (pools.fields.checkin lease.requestFields).checkin lease.responseFields
  url := pools.url.checkin lease.url

end Pools

end HttpService
