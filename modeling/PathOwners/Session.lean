import PathOwners.Cache

/-!
# Sessions

A session works with several caches and one rule set. Caches are named by handles, numbered from zero in the order in
which they were made; a handle that was made from another one shares its patterns.
-/

namespace PathOwners

/-! ## Shared caches -/

/-- Caches under handles: the handle `i` stands for the cache at the place `places[i]`. -/
structure CachePool where
  caches : List Cache
  places : List Nat

namespace CachePool

/-- One handle for one empty cache. -/
def initial : CachePool := ⟨[.empty], [0]⟩

/-- The cache under a handle. -/
def cache? (pool : CachePool) (handle : Nat) : Option Cache := do pool.caches[← pool.places[handle]?]?

/-- A handle for a new, empty cache. -/
def addNew (pool : CachePool) : CachePool :=
  ⟨pool.caches ++ [.empty], pool.places ++ [pool.caches.length]⟩

/-- A handle for the cache of another handle. -/
def share? (pool : CachePool) (handle : Nat) : Option CachePool := do
  return { pool with places := pool.places ++ [← pool.places[handle]?] }

/-- Works on the cache under a handle. -/
def modify? {α : Type} (pool : CachePool) (handle : Nat) (work : Cache → α × Cache) : Option (α × CachePool) := do
  let place ← pool.places[handle]?
  let (answer, cache) := work (← pool.caches[place]?)
  return (answer, { pool with caches := pool.caches.set place cache })

/-- The number of patterns under each handle. -/
def sizes (pool : CachePool) : List Nat :=
  pool.places.map fun place => (pool.caches[place]?.map Cache.size).getD 0

end CachePool

/-! ## Requests -/

/-- What can be asked of a session. -/
inductive Request where
  | newCache
  | shareCache (cache : Nat)
  | clear (cache : Nat)
  | pathMatches (cache : Nat) (path pattern : String)
  | load (rules : List Rule)
  | loadCached (cache : Nat) (rules : List Rule)
  | bestMatch (path : String)
  | resolve (path : String)
  | describe (paths : List String)
  deriving DecidableEq, Repr

/-- What a session answers. -/
inductive Reply where
  | cleared
  /-- A new cache, by its handle. -/
  | handle (cache : Nat)
  | verdict (matched : Bool)
  /-- The rules of the new rule set are this many. -/
  | loaded (count : Nat)
  | rule (rule : Option Rule)
  | resolution (resolution : RuleSet.Resolution)
  | description (description : RuleSet.Description)
  deriving DecidableEq, Repr

/-- The caches of a session, and its rule set once one has been loaded. -/
structure Session where
  pool : CachePool := .initial
  ruleSet : Option RuleSet := none

namespace Session

/-- The session after its caches have changed. -/
def withPool (session : Session) (pool : CachePool) : Session := { session with pool := pool }

/-- Answers a request; `none` if it names no cache of the session, or asks for a rule set before there is one. -/
def step? (session : Session) : Request → Option (Reply × Session)
  | .newCache => some (.handle session.pool.places.length, session.withPool session.pool.addNew)
  | .shareCache cache => do
    return (.handle session.pool.places.length, session.withPool (← session.pool.share? cache))
  | .clear cache => do
    let (reply, pool) ← session.pool.modify? cache fun _ => (Reply.cleared, .empty)
    return (reply, session.withPool pool)
  | .pathMatches cache path pattern => do
    let (matched, pool) ← session.pool.modify? cache fun held => held.pathMatches path pattern
    return (.verdict matched, session.withPool pool)
  | .load rules => some (.loaded rules.length, { session with ruleSet := some (.ofRules rules) })
  | .loadCached cache rules => do
    let (ruleSet, pool) ← session.pool.modify? cache fun held => held.ruleSetOf rules
    return (.loaded rules.length, ⟨pool, some ruleSet⟩)
  | .bestMatch path => do return (.rule ((← session.ruleSet).bestMatch? path), session)
  | .resolve path => do return (.resolution ((← session.ruleSet).resolve path), session)
  | .describe paths => do return (.description ((← session.ruleSet).describe paths), session)

/-- Answers requests one after the other; each answer comes with the number of patterns under each handle after it. -/
def run? (session : Session) : List Request → Option (List (Reply × List Nat))
  | [] => some []
  | request :: requests => do
    let (reply, session) ← session.step? request
    return (reply, session.pool.sizes) :: (← session.run? requests)

end Session

end PathOwners
