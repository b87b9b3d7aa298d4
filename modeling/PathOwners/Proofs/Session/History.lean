import PathOwners.Proofs.Cache.Contents
import PathOwners.Session

/-!
# Sessions and their histories

What a session answers, said of the requests made so far and not of any cache: a path matches a pattern as if it had
been asked for alone, a rule set answers as its rules do, and the size under a handle is the number of patterns asked
for, since the last clearing, through this handle and those that share its cache (`History.reply?`, `History.sizes`).

A session records its history (`Session.Records`) if each cache holds the patterns that the history says it was asked
for. A new session does, every request keeps it so and is answered as the history says (`Session.Records.step`), and so
all answers of a session are those of its history (`Session.Records.run`, `Session.cache_unobservable`).
-/

namespace PathOwners

/-! ## Histories -/

/-- The patterns of a cache after a request that works on it. -/
def Request.patternsAfter (patterns : Finset String) : Request → Finset String
  | .clear _ => ∅
  | .pathMatches _ _ pattern => insert pattern patterns
  | .loadCached _ rules => patterns ∪ (rules.map Rule.pattern).toFinset
  | _ => patterns

/-- The requests of a session so far, the latest one first. -/
abbrev History := List Request

namespace History

/-- The number of caches that have been made. -/
def cacheCount : History → Nat
  | [] => 1
  | .newCache :: past => cacheCount past + 1
  | _ :: past => cacheCount past

/-- The cache of each handle, the caches numbered in the order in which they were made. -/
def places : History → List Nat
  | [] => [0]
  | .newCache :: past => places past ++ [cacheCount past]
  | .shareCache handle :: past => places past ++ (places past)[handle]?.toList
  | _ :: past => places past

/-- The cache that a request works on. -/
def cacheUsed? (past : History) : Request → Option Nat
  | .clear handle => (places past)[handle]?
  | .pathMatches handle _ _ => (places past)[handle]?
  | .loadCached handle _ => (places past)[handle]?
  | _ => none

/-- The patterns that a cache has been asked for since it was last cleared, through whichever handle. -/
def requested (cache : Nat) : History → Finset String
  | [] => ∅
  | request :: past =>
    if cacheUsed? past request = some cache then request.patternsAfter (requested cache past)
    else requested cache past

/-- The number of patterns asked for through each handle or one that shares its cache. -/
def sizes (past : History) : List Nat := (places past).map fun cache => (requested cache past).card

/-- The rules that were loaded last. -/
def loaded? : History → Option (List Rule)
  | [] => none
  | .load rules :: _ => some rules
  | .loadCached _ rules :: _ => some rules
  | _ :: past => loaded? past

/-- What is answered to a request, if its handle has been made and its rules have been loaded. -/
def reply? (past : History) : Request → Option Reply
  | .newCache => some (.handle (places past).length)
  | .shareCache handle => (places past)[handle]?.map fun _ => .handle (places past).length
  | .clear handle => (places past)[handle]?.map fun _ => .cleared
  | .pathMatches handle path pattern =>
    (places past)[handle]?.map fun _ => .verdict (PathOwners.pathMatches path pattern)
  | .load rules => some (.loaded rules.length)
  | .loadCached handle rules => (places past)[handle]?.map fun _ => .loaded rules.length
  | .bestMatch path => (loaded? past).map fun rules => .rule ((RuleSet.ofRules rules).bestMatch? path)
  | .resolve path => (loaded? past).map fun rules => .resolution ((RuleSet.ofRules rules).resolve path)
  | .describe paths => (loaded? past).map fun rules => .description ((RuleSet.ofRules rules).describe paths)

/-- What is answered to requests one after the other, each answer with the sizes after it. -/
def answers? (past : History) : List Request → Option (List (Reply × List Nat))
  | [] => some []
  | request :: requests => do
    let reply ← reply? past request
    return (reply, sizes (request :: past)) :: (← answers? (request :: past) requests)

variable {past : History} {cache : Nat}

theorem place_lt (h : cache ∈ places past) : cache < cacheCount past := by
  induction past with
  | nil =>
    obtain rfl : cache = 0 := by simpa [places] using h
    exact Nat.one_pos
  | cons request past ih =>
    cases request with
    | newCache =>
      rcases List.mem_append.mp h with h | h
      · exact (ih h).trans (Nat.lt_succ_self _)
      · obtain rfl := List.mem_singleton.mp h
        exact Nat.lt_succ_self _
    | shareCache handle =>
      rcases List.mem_append.mp h with h | h
      · exact ih h
      · exact ih (List.mem_of_getElem? (Option.mem_toList.mp h))
    | clear | pathMatches | load | loadCached | bestMatch | resolve | describe => exact ih h

theorem mem_places_of_cacheUsed {request : Request} (h : cacheUsed? past request = some cache) :
    cache ∈ places past := by
  cases request with
  | clear | pathMatches | loadCached => exact List.mem_of_getElem? h
  | newCache | shareCache | load | bestMatch | resolve | describe => cases h

/-- Nothing has been asked of a cache before it is made. -/
theorem requested_eq_empty (h : cacheCount past ≤ cache) : requested cache past = ∅ := by
  induction past with
  | nil => rfl
  | cons request past ih =>
    have hpast : cacheCount past ≤ cache := by
      refine le_trans ?_ h
      cases request with
      | newCache => exact Nat.le_succ _
      | shareCache | clear | pathMatches | load | loadCached | bestMatch | resolve | describe => exact le_rfl
    rw [requested, if_neg, ih hpast]
    exact fun hused => absurd (place_lt (mem_places_of_cacheUsed hused)) (not_lt.mpr hpast)

theorem requested_of_not_used {request : Request} (h : cacheUsed? past request = none) :
    requested cache (request :: past) = requested cache past := by
  rw [requested, h, if_neg (Option.some_ne_none cache).symm]

end History

open History

/-! ## Pools -/

namespace CachePool

/-- The handles are for the caches that the history says, and each cache holds the patterns it was asked for. -/
structure Records (pool : CachePool) (past : History) : Prop where
  places : pool.places = History.places past
  count : pool.caches.length = cacheCount past
  holds : ∀ (place : Nat) (cache : Cache), pool.caches[place]? = some cache → cache.Holds (requested place past)

variable {pool pool' : CachePool} {past : History} {request : Request} {handle place : Nat}

/-- The handles stand for what they stood for, and each cache is as it was, other than the one that is worked on. -/
structure Keeps (pool pool' : CachePool) (used : Option Nat) : Prop where
  places : pool.places <+: pool'.places
  caches : ∀ place < pool.caches.length, used ≠ some place → pool'.caches[place]? = pool.caches[place]?

theorem Keeps.refl (pool : CachePool) (used : Option Nat) : pool.Keeps pool used :=
  ⟨List.prefix_rfl, fun _ _ _ => rfl⟩

theorem keeps_addNew (pool : CachePool) : pool.Keeps pool.addNew none :=
  ⟨List.prefix_append _ _, fun _ hlt _ => List.getElem?_append_left hlt⟩

/-- A handle whose cache is not worked on has the cache that it had. -/
theorem Keeps.cache {used : Option Nat} (h : pool.Keeps pool' used) (hplace : pool.places[handle]? = some place)
    (hlt : place < pool.caches.length) (hused : used ≠ some place) : pool'.cache? handle = pool.cache? handle := by
  obtain ⟨later, hlater⟩ := h.places
  have hplace' : pool'.places[handle]? = some place := by
    rw [← hlater, List.getElem?_append_left (List.getElem?_eq_some_iff.mp hplace).1, hplace]
  simp only [cache?, hplace, hplace', Option.bind_eq_bind, Option.bind_some, h.caches place hlt hused]

theorem records_initial : initial.Records [] := by
  refine ⟨rfl, rfl, fun place cache hget => ?_⟩
  obtain ⟨-, rfl⟩ : place = 0 ∧ Cache.empty = cache := by
    cases place with
    | zero => simpa [initial] using hget
    | succ place => simp [initial] at hget
  exact Cache.holds_empty

/-- Every handle has a cache, and it holds what was asked for through it and those that share it. -/
theorem Records.exists_cache (h : pool.Records past) (hplace : place ∈ History.places past) :
    ∃ cache, pool.caches[place]? = some cache ∧ cache.Holds (requested place past) := by
  have hlt : place < pool.caches.length := h.count ▸ place_lt hplace
  exact ⟨_, List.getElem?_eq_getElem hlt, h.holds place _ (List.getElem?_eq_getElem hlt)⟩

theorem Records.sizes (h : pool.Records past) : pool.sizes = History.sizes past := by
  rw [CachePool.sizes, h.places]
  refine List.map_congr_left fun place hplace => ?_
  obtain ⟨cache, hget, hholds⟩ := h.exists_cache hplace
  rw [hget, Option.map_some, Option.getD_some, hholds.size]

/-- A request that works on no cache and makes no handle changes nothing. -/
theorem Records.keep (h : pool.Records past) (hplaces : History.places (request :: past) = History.places past)
    (hcount : cacheCount (request :: past) = cacheCount past) (hused : cacheUsed? past request = none) :
    pool.Records (request :: past) := by
  refine ⟨h.places.trans hplaces.symm, h.count.trans hcount.symm, fun place cache hget => ?_⟩
  rw [requested_of_not_used hused]
  exact h.holds place cache hget

theorem Records.addNew (h : pool.Records past) : pool.addNew.Records (.newCache :: past) := by
  refine ⟨?_, ?_, fun place cache hget => ?_⟩
  · rw [CachePool.addNew, h.places, h.count, History.places]
  · rw [CachePool.addNew, List.length_append, h.count, cacheCount, List.length_singleton]
  · rw [requested_of_not_used rfl]
    rcases lt_or_ge place pool.caches.length with hlt | hge
    · rw [CachePool.addNew, List.getElem?_append_left hlt] at hget
      exact h.holds place cache hget
    · rw [CachePool.addNew, List.getElem?_append_right hge, List.getElem?_singleton] at hget
      obtain ⟨-, rfl⟩ := Option.ite_some_none_eq_some.mp hget
      rw [requested_eq_empty (h.count ▸ hge)]
      exact Cache.holds_empty

theorem Records.share (h : pool.Records past) (hplace : (History.places past)[handle]? = some place) :
    ∃ pool', pool.share? handle = some pool' ∧ pool'.Records (.shareCache handle :: past) ∧ pool.Keeps pool' none := by
  refine ⟨{ pool with places := pool.places ++ [place] }, ?_, ⟨?_, h.count, fun place cache hget => ?_⟩,
    List.prefix_append _ _, fun _ _ _ => rfl⟩
  · simp [share?, h.places, hplace]
  · simp [History.places, h.places, hplace]
  · rw [requested_of_not_used rfl]
    exact h.holds place cache hget

/-- A request that works on the cache of a handle: what is left is a cache that holds the patterns after it. -/
theorem Records.modify {α : Type} {work : Cache → α × Cache} {answer : α} (h : pool.Records past)
    (hplaces : History.places (request :: past) = History.places past)
    (hcount : cacheCount (request :: past) = cacheCount past)
    (hplace : (History.places past)[handle]? = some place) (hused : cacheUsed? past request = some place)
    (hwork : ∀ {cache : Cache} {patterns : Finset String}, cache.Holds patterns →
      ∃ cache', work cache = (answer, cache') ∧ cache'.Holds (request.patternsAfter patterns)) :
    ∃ pool', pool.modify? handle work = some (answer, pool') ∧ pool'.Records (request :: past) ∧
      pool.Keeps pool' (some place) := by
  obtain ⟨cache, hget, hholds⟩ := h.exists_cache (List.mem_of_getElem? hplace)
  obtain ⟨cache', hanswer, hholds'⟩ := hwork hholds
  have hkeeps : pool.Keeps { pool with caches := pool.caches.set place cache' } (some place) :=
    ⟨List.prefix_rfl, fun _ _ hne => List.getElem?_set_ne (by simpa using hne)⟩
  refine ⟨{ pool with caches := pool.caches.set place cache' }, ?_, ⟨h.places.trans hplaces.symm, ?_, ?_⟩, hkeeps⟩
  · simp [modify?, h.places, hplace, hget, hanswer]
  · rw [List.length_set, h.count, hcount]
  · intro place' other hother
    rw [requested, hused]
    rcases eq_or_ne place place' with rfl | hne
    · obtain ⟨-, rfl⟩ : place < pool.caches.length ∧ cache' = other := by
        simpa [List.getElem?_set] using hother
      rwa [if_pos rfl]
    · rw [if_neg (by simpa using hne)]
      rw [List.getElem?_set_ne hne] at hother
      exact h.holds place' other hother

end CachePool

/-! ## Sessions -/

namespace Session

/-- The session is in the state that the history says. -/
structure Records (session : Session) (past : History) : Prop where
  pool : session.pool.Records past
  ruleSet : session.ruleSet = (loaded? past).map RuleSet.ofRules

variable {session session' : Session} {past : History} {request : Request}

theorem records_initial : Records {} [] := ⟨CachePool.records_initial, rfl⟩

/-- A request is answered as the history says, the session records it, and the caches it does not work on stay. -/
def Agrees (session : Session) (past : History) (request : Request) : Prop :=
  (session.step? request = none ∧ reply? past request = none) ∨
    ∃ reply session', session.step? request = some (reply, session') ∧ reply? past request = some reply ∧
      session'.Records (request :: past) ∧ session.pool.Keeps session'.pool (cacheUsed? past request)

/-- A request that works on the cache of a handle is answered if the handle has been made. -/
theorem Records.work {α : Type} {handle : Nat} {work : Cache → α × Cache} {answer : α} (h : session.Records past)
    (toReply : α → Reply) (finish : α → CachePool → Session)
    (hstep : session.step? request =
      (session.pool.modify? handle work).bind fun done => some (toReply done.1, finish done.1 done.2))
    (hreply : reply? past request = (places past)[handle]?.map fun _ => toReply answer)
    (hplaces : places (request :: past) = places past) (hcount : cacheCount (request :: past) = cacheCount past)
    (hused : cacheUsed? past request = (places past)[handle]?)
    (hwork : ∀ {cache : Cache} {patterns : Finset String}, cache.Holds patterns →
      ∃ cache', work cache = (answer, cache') ∧ cache'.Holds (request.patternsAfter patterns))
    (hpool : ∀ pool, (finish answer pool).pool = pool)
    (hset : ∀ pool, (finish answer pool).ruleSet = (loaded? (request :: past)).map RuleSet.ofRules) :
    session.Agrees past request := by
  rw [Agrees, hstep, hreply, hused]
  cases hplace : (places past)[handle]? with
  | none =>
    have hnone : session.pool.modify? handle work = none := by simp [CachePool.modify?, h.pool.places, hplace]
    exact .inl ⟨by rw [hnone]; rfl, rfl⟩
  | some place =>
    obtain ⟨pool, hmodify, hrecords, hkeeps⟩ := h.pool.modify hplaces hcount hplace (hused.trans hplace) hwork
    refine .inr ⟨toReply answer, finish answer pool, by rw [hmodify]; rfl, rfl, ⟨?_, hset pool⟩, ?_⟩
    · rwa [hpool]
    · rwa [hpool]

/-- A question to the rule set is answered if rules have been loaded, and changes nothing. -/
theorem Records.ask {answer : RuleSet → Reply} (h : session.Records past)
    (hstep : session.step? request = session.ruleSet.bind fun set => some (answer set, session))
    (hreply : reply? past request = (loaded? past).map fun rules => answer (.ofRules rules))
    (hrecords : session.Records (request :: past)) : session.Agrees past request := by
  rw [Agrees, hstep, hreply, h.ruleSet]
  cases loaded? past with
  | none => exact .inl ⟨rfl, rfl⟩
  | some rules => exact .inr ⟨_, session, rfl, rfl, hrecords, .refl _ _⟩

/-- **A request is answered as the history says, and the session records it.** -/
theorem Records.step (h : session.Records past) (request : Request) : session.Agrees past request := by
  cases request with
  | newCache =>
    exact .inr ⟨_, _, rfl, by rw [reply?, h.pool.places], ⟨h.pool.addNew, h.ruleSet⟩, CachePool.keeps_addNew _⟩
  | shareCache handle =>
    cases hplace : (places past)[handle]? with
    | none => exact .inl ⟨by simp [step?, CachePool.share?, h.pool.places, hplace], by simp [reply?, hplace]⟩
    | some place =>
      obtain ⟨pool, hshare, hrecords, hkeeps⟩ := h.pool.share hplace
      refine .inr ⟨.handle (places past).length, session.withPool pool, ?_, ?_, ⟨hrecords, h.ruleSet⟩, hkeeps⟩
      · simp [step?, hshare, h.pool.places]
      · simp [reply?, hplace]
  | clear handle =>
    exact h.work id (fun _ pool => session.withPool pool) rfl rfl rfl rfl rfl
      (fun _ => ⟨_, rfl, Cache.holds_empty⟩) (fun _ => rfl) fun _ => h.ruleSet
  | pathMatches handle path pattern =>
    exact h.work .verdict (fun _ pool => session.withPool pool) rfl rfl rfl rfl rfl
      (fun hholds => hholds.pathMatches path pattern) (fun _ => rfl) fun _ => h.ruleSet
  | loadCached handle rules =>
    exact h.work (fun _ => .loaded rules.length) (fun set pool => ⟨pool, some set⟩) rfl rfl rfl rfl rfl
      (fun hholds => hholds.ruleSetOf rules) (fun _ => rfl) fun _ => rfl
  | load rules => exact .inr ⟨_, _, rfl, rfl, ⟨h.pool.keep rfl rfl rfl, rfl⟩, .refl _ _⟩
  | bestMatch path => exact h.ask rfl rfl ⟨h.pool.keep rfl rfl rfl, h.ruleSet⟩
  | resolve path => exact h.ask rfl rfl ⟨h.pool.keep rfl rfl rfl, h.ruleSet⟩
  | describe paths => exact h.ask rfl rfl ⟨h.pool.keep rfl rfl rfl, h.ruleSet⟩

/-- **A session answers as its history says**, from any state that records one. -/
theorem Records.run (h : session.Records past) (requests : List Request) :
    session.run? requests = answers? past requests := by
  induction requests generalizing session past with
  | nil => rfl
  | cons request requests ih =>
    rcases h.step request with ⟨hstep, hreply⟩ | ⟨reply, session', hstep, hreply, h', -⟩
    · simp only [run?, answers?, hstep, hreply]
      rfl
    · simp only [run?, answers?, hstep, hreply, Option.bind_eq_bind, Option.bind_some, h'.pool.sizes, ih h']

/-- The session after some requests, if all of them are answered. -/
def after? (session : Session) : List Request → Option Session
  | [] => some session
  | request :: requests => do (← session.step? request).2.after? requests

theorem Records.after (h : session.Records past) {requests : List Request}
    (hafter : session.after? requests = some session') : session'.Records (requests.reverse ++ past) := by
  induction requests generalizing session past with
  | nil =>
    obtain rfl := Option.some.inj hafter
    exact h
  | cons request requests ih =>
    rcases h.step request with ⟨hstep, -⟩ | ⟨reply, next, hstep, -, hnext, -⟩
    · simp [after?, hstep] at hafter
    · simp only [after?, hstep, Option.bind_eq_bind, Option.bind_some] at hafter
      rw [List.reverse_cons, List.append_assoc, List.singleton_append]
      exact ih hnext hafter

/-- Requests that are all answered lead to a session. -/
theorem exists_after {requests : List Request} {answers : List (Reply × List Nat)}
    (h : session.run? requests = some answers) : ∃ session', session.after? requests = some session' := by
  induction requests generalizing session answers with
  | nil => exact ⟨session, rfl⟩
  | cons request requests ih =>
    obtain ⟨done, hstep, hdone⟩ := Option.bind_eq_some_iff.mp h
    obtain ⟨later, hlater, -⟩ := Option.bind_eq_some_iff.mp hdone
    obtain ⟨session', hafter⟩ := ih hlater
    refine ⟨session', ?_⟩
    simp only [after?, hstep, Option.bind_eq_bind, Option.bind_some, hafter]

/-- Every handle has the cache that the history says, and it holds what was asked of it. -/
theorem Records.exists_cache (h : session.Records past) {handle place : Nat}
    (hplace : (places past)[handle]? = some place) :
    ∃ cache, session.pool.cache? handle = some cache ∧ place < session.pool.caches.length ∧
      cache.Holds (requested place past) := by
  obtain ⟨cache, hget, hholds⟩ := h.pool.exists_cache (List.mem_of_getElem? hplace)
  refine ⟨cache, ?_, (List.getElem?_eq_some_iff.mp hget).1, hholds⟩
  simp [CachePool.cache?, h.pool.places, hplace, hget]

/-- A step leaves the cache of a handle alone if it works on another one. -/
theorem Records.cache_of_step (h : session.Records past) {reply : Reply} {handle place : Nat}
    (hstep : session.step? request = some (reply, session')) (hplace : (places past)[handle]? = some place)
    (hlt : place < session.pool.caches.length) (hused : cacheUsed? past request ≠ some place) :
    session'.pool.cache? handle = session.pool.cache? handle := by
  rcases h.step request with ⟨hnone, -⟩ | ⟨reply', next, hnext, -, -, hkeeps⟩
  · rw [hnone] at hstep
    cases hstep
  · obtain ⟨-, rfl⟩ := Prod.mk.inj (Option.some.inj (hnext.symm.trans hstep))
    exact hkeeps.cache (h.pool.places ▸ hplace) hlt hused

/-- **No answer depends on what a cache holds.** A session answers as the history of its requests says. After any
requests the rule set is that of the rules loaded last, and whatever cache a handle has by then, it matches as patterns
do by themselves and makes the rule sets that rules make by themselves; its size is the number of patterns asked for
through this handle and those that share its cache since it was last cleared; and requests that work on other caches
leave it as it is. -/
theorem cache_unobservable (requests : List Request) :
    run? {} requests = answers? [] requests ∧
    ∀ session, after? {} requests = some session →
      session.ruleSet = (loaded? requests.reverse).map RuleSet.ofRules ∧
      ∀ handle place, (places requests.reverse)[handle]? = some place →
        ∃ cache, session.pool.cache? handle = some cache ∧
          (∀ path pattern, (cache.pathMatches path pattern).1 = PathOwners.pathMatches path pattern) ∧
          (∀ rules, (cache.ruleSetOf rules).1 = .ofRules rules) ∧
          cache.size = (requested place requests.reverse).card ∧
          (cache.isEmpty = true ↔ requested place requests.reverse = ∅) ∧
          ∀ request reply session', session.step? request = some (reply, session') →
            cacheUsed? requests.reverse request ≠ some place → session'.pool.cache? handle = some cache := by
  refine ⟨records_initial.run requests, fun session hafter => ?_⟩
  have hrecords : session.Records requests.reverse := by
    have h := records_initial.after hafter
    rwa [List.append_nil] at h
  refine ⟨hrecords.ruleSet, fun handle place hplace => ?_⟩
  obtain ⟨cache, hcache, hlt, hholds⟩ := hrecords.exists_cache hplace
  refine ⟨cache, hcache, fun path pattern => ?_, fun rules => ?_, hholds.size, hholds.isEmpty, ?_⟩
  · obtain ⟨_, hmatches, -⟩ := hholds.pathMatches path pattern
    rw [hmatches]
  · obtain ⟨_, hruleSet, -⟩ := hholds.ruleSetOf rules
    rw [hruleSet]
  · intro request reply session' hstep hused
    rw [hrecords.cache_of_step hstep hplace hlt hused, hcache]

/-- Two handles of one cache and one of another: a pattern that cannot be compiled counts, a pattern asked for again
does not, and clearing leaves the rule set and the other cache as they are. -/
theorem cache_unobservable_shared :
    let rules : List Rule := [⟨"*.js", ["@a"]⟩, ⟨"[", ["@b"]⟩]
    let requests : List Request := [.pathMatches 0 "a.js" "*.js", .shareCache 0, .newCache, .loadCached 1 rules,
      .pathMatches 2 "a.js" "a.js", .clear 0, .bestMatch "a.js"]
    let answers : List (Reply × List Nat) := [(.verdict true, [1]), (.handle 1, [1, 1]), (.handle 2, [1, 1, 0]),
      (.loaded 2, [2, 2, 0]), (.verdict true, [2, 2, 1]), (.cleared, [0, 0, 1]),
      (.rule (some ⟨"*.js", ["@a"]⟩), [0, 0, 1])]
    run? {} requests = some answers ∧
    ∃ session, after? {} requests = some session ∧ session.ruleSet = some (.ofRules rules) ∧
      (∃ cache, session.pool.cache? 1 = some cache ∧ cache.isEmpty = true) ∧
      ∃ cache, session.pool.cache? 2 = some cache ∧ cache.size = 1 := by
  intro rules requests answers
  obtain ⟨hrun, hstate⟩ := cache_unobservable requests
  have hanswers : answers? [] requests = some answers := by decide +kernel
  obtain ⟨session, hafter⟩ := exists_after (hrun.trans hanswers)
  obtain ⟨hruleSet, hcaches⟩ := hstate session hafter
  have hplaces : places requests.reverse = [0, 0, 1] := by decide +kernel
  have hcleared : requested 0 requests.reverse = ∅ := by decide +kernel
  have hcount : (requested 1 requests.reverse).card = 1 := by decide +kernel
  obtain ⟨first, hfirst, -, -, -, hempty, -⟩ := hcaches 1 0 (by rw [hplaces]; rfl)
  obtain ⟨second, hsecond, -, -, hsize, -⟩ := hcaches 2 1 (by rw [hplaces]; rfl)
  exact ⟨hrun.trans hanswers, session, hafter, hruleSet, ⟨first, hfirst, hempty.mpr hcleared⟩, second, hsecond,
    hsize.trans hcount⟩

end Session

end PathOwners
