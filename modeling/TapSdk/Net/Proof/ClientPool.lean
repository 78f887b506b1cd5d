import TapSdk.Net.ClientPool

/-!
# Requests that share a pool

A client is in one hand at a time, so every request is written as if it had a client of its own. The
coroutine gives its client back before it looks at its response: the next request may take the
memory away.
-/

namespace TapSdk.Net

open Library

variable {config : CoroHttpClient} {order : Pairs → Pairs} {pool next : ClientPool}
    {number index : Nat}
  {flight changed : Flight} {client : PooledClient} {careful : Prop}

/-! ### Additions -/

theorem foldl_apply_part (coro : CoroClient) (parts : Pairs) :
    (parts.map Addition.part).foldl Addition.apply coro
      = parts.foldl CoroClient.addStrPart coro := by
  rw [List.foldl_map]
  rfl

theorem foldl_apply_header (coro : CoroClient) (headers : Pairs) :
    (headers.map Addition.header).foldl Addition.apply coro
      = headers.foldl CoroClient.addHeader coro := by
  rw [List.foldl_map]
  rfl

/-- What a new client is after all its additions. -/
theorem foldl_additions (config : CoroHttpClient) (request : Request) :
    (config.additions request).foldl Addition.apply CoroClient.empty
      = request.headers.foldl CoroClient.addHeader (config.prepare CoroClient.empty) := by
  rw [CoroHttpClient.additions, List.foldl_append, List.foldl_append, foldl_apply_part,
    foldl_apply_header, foldl_apply_header]
  rfl

/-! ### The invariant -/

namespace ClientPool

/-- The request has the client, and nobody else can get it. -/
structure Held (pool : ClientPool) (number index : Nat) (client : PooledClient) : Prop where
  client_eq : pool.clients[index]? = some client
  user : client.user = number
  not_idle : index ∉ pool.idle

/-- What a request finds in the memory of its client. -/
def Finds (client : PooledClient) (number : Nat) (response : Response) : Prop :=
  client.look number response = some response.content

/-- A request and its client. With `careful`, no client is taken before its last response has been
looked at. -/
def StageSound (config : CoroHttpClient) (careful : Prop) (pool : ClientPool) (number : Nat)
    (flight : Flight) :
    Prop :=
  match flight.stage with
  | .adding index rest => ∃ client, pool.Held number index client
      ∧ rest.foldl Addition.apply client.coro
        = (config.additions flight.request).foldl Addition.apply CoroClient.empty
  | .waiting index => ∃ client, pool.Held number index client
  | .answered index response => ∃ client, pool.Held number index client
      ∧ Finds client number response
  | .recycled index response =>
      (careful → ∃ client, pool.clients[index]? = some client ∧ client.user = number)
      ∧ ∀ client, pool.clients[index]? = some client → client.user = number →
        Finds client number response
  | .looked index response seen => flight.form = .callback ∧ seen = some response.content
      ∧ ∃ client, pool.Held number index client
  | .done response seen => flight.form = .callback ∨ careful → seen = some response.content

structure FlightSound (config : CoroHttpClient) (order : Pairs → Pairs) (careful : Prop)
    (pool : ClientPool) (number : Nat) (flight : Flight) : Prop where
  written : ∀ text, flight.written = some text → config.requestText order flight.request = some text
  stage : StageSound config careful pool number flight

structure Sound (config : CoroHttpClient) (order : Pairs → Pairs) (careful : Prop)
    (pool : ClientPool) : Prop where
  nodup : pool.idle.Nodup
  size : pool.idle.length ≤ maxPoolSize
  idle_lt : ∀ index ∈ pool.idle, index < pool.clients.length
  flights : ∀ number flight, pool.flights[number]? = some flight →
    FlightSound config order careful pool number flight

/-! ### What a step leaves alone -/

/-- A step that keeps the clients which the request has, and makes no other client its own. -/
structure Undisturbed (careful : Prop) (pool next : ClientPool) (number : Nat)
    (flight : Flight) : Prop where
  held : ∀ index client, pool.Held number index client → next.Held number index client
  own : ∀ (index : Nat) (client : PooledClient), next.clients[index]? = some client →
    client.user = number →
    pool.clients[index]? = some client
  recycled : careful → ∀ (index : Nat) (response : Response) (client : PooledClient),
    flight.stage = .recycled index response → pool.clients[index]? = some client →
      client.user = number →
      next.clients[index]? = some client

theorem FlightSound.frame (h : FlightSound config order careful pool number flight)
    (hnext : Undisturbed careful pool next number flight) :
    FlightSound config order careful next number flight := by
  obtain ⟨hwritten, hstage⟩ := h
  refine ⟨hwritten, ?_⟩
  unfold StageSound at hstage ⊢
  cases hcase : flight.stage with
  | adding index rest =>
      rw [hcase] at hstage
      obtain ⟨client, hclient, hrest⟩ := hstage
      exact ⟨client, hnext.held index client hclient, hrest⟩
  | waiting index =>
      rw [hcase] at hstage
      obtain ⟨client, hclient⟩ := hstage
      exact ⟨client, hnext.held index client hclient⟩
  | answered index response =>
      rw [hcase] at hstage
      obtain ⟨client, hclient, hfinds⟩ := hstage
      exact ⟨client, hnext.held index client hclient, hfinds⟩
  | recycled index response =>
      rw [hcase] at hstage
      refine ⟨fun hall => ?_, fun client hclient huser =>
        hstage.2 client (hnext.own index client hclient huser) huser⟩
      obtain ⟨client, hclient, huser⟩ := hstage.1 hall
      exact ⟨client, hnext.recycled hall index response client hcase hclient huser, huser⟩
  | looked index response seen =>
      rw [hcase] at hstage
      obtain ⟨hform, hseen, client, hclient⟩ := hstage
      exact ⟨hform, hseen, client, hnext.held index client hclient⟩
  | done response seen =>
      rw [hcase] at hstage
      exact hstage

/-- The others are not concerned by what a request does with its own client. -/
theorem Held.undisturbed (h : pool.Held number index client) {after : PooledClient}
    (huser : after.user = number) {other : Nat} (hne : other ≠ number) (found : Flight) :
    Undisturbed careful pool ((pool.setClient index after).setFlight number changed)
      other found := by
  have hclients : ∀ {position : Nat}, index ≠ position →
      (pool.clients.set index after)[position]? = pool.clients[position]? :=
    fun hposition => List.getElem?_set_ne hposition
  have hself : (pool.clients.set index after)[index]? = some after :=
    List.getElem?_set_self (List.getElem?_eq_some_iff.mp h.client_eq).1
  have hposition : ∀ {position : Nat} {owned : PooledClient}, pool.clients[position]? = some owned →
      owned.user = other → index ≠ position := by
    rintro position owned howned hother rfl
    obtain rfl := Option.some.inj (h.client_eq.symm.trans howned)
    exact hne (hother.symm.trans h.user)
  refine ⟨fun position owned howned => ?_, fun position owned howned hother => ?_,
    fun _ position response owned _ howned hother => ?_⟩
  · exact ⟨(hclients (hposition howned.client_eq howned.user)).trans howned.client_eq, howned.user,
      howned.not_idle⟩
  · have howned : (pool.clients.set index after)[position]? = some owned := howned
    by_cases heq : index = position
    · subst heq
      rw [hself] at howned
      cases howned
      exact absurd (hother.symm.trans huser) hne
    · rwa [hclients heq] at howned
  · exact (hclients (hposition howned hother)).trans howned

theorem flights_setFlight {other : Nat} {found : Flight}
    (h : (pool.flights.set number changed)[other]? = some found) :
    (other = number ∧ found = changed) ∨ (other ≠ number ∧ pool.flights[other]? = some found) := by
  rw [List.getElem?_set] at h
  split at h
  · next heq =>
      split at h
      · cases h
        exact Or.inl ⟨heq.symm, rfl⟩
      · cases h
  · next hne => exact Or.inr ⟨Ne.symm hne, h⟩

/-- A request changes the client it has, and goes on. -/
theorem Sound.update (h : Sound config order careful pool) (hheld : pool.Held number index client)
    {after : PooledClient} (huser : after.user = number)
    (hflight : FlightSound config order careful
      ((pool.setClient index after).setFlight number changed) number
      changed) :
    Sound config order careful ((pool.setClient index after).setFlight number changed) := by
  refine ⟨h.nodup, h.size, fun other hother => ?_, fun other found hfound => ?_⟩
  · show other < (pool.clients.set index after).length
    rw [List.length_set]
    exact h.idle_lt other hother
  · rcases flights_setFlight hfound with ⟨rfl, rfl⟩ | ⟨hne, hfound⟩
    · exact hflight
    · exact (h.flights other found hfound).frame (hheld.undisturbed huser hne found)

/-- A request goes on, and no client changes. -/
theorem Sound.setFlight (h : Sound config order careful pool)
    (hflight : FlightSound config order careful pool number changed) :
    Sound config order careful (pool.setFlight number changed) := by
  have hsame (other : Nat) (found : Flight) :
      Undisturbed careful pool (pool.setFlight number changed) other found :=
    ⟨fun _ _ hheld => ⟨hheld.client_eq, hheld.user, hheld.not_idle⟩, fun _ _ hclient _ => hclient,
      fun _ _ _ _ _ hclient _ => hclient⟩
  refine ⟨h.nodup, h.size, h.idle_lt, fun other found hfound => ?_⟩
  rcases flights_setFlight hfound with ⟨rfl, rfl⟩ | ⟨hne, hfound⟩
  · exact hflight.frame (hsame _ _)
  · exact (h.flights other found hfound).frame (hsame other found)

theorem flights_append {other : Nat} {found : Flight}
    (h : (pool.flights ++ [changed])[other]? = some found) :
    (other = pool.flights.length ∧ found = changed)
      ∨ (other < pool.flights.length ∧ pool.flights[other]? = some found) := by
  rw [List.getElem?_append] at h
  split at h
  · next hlt => exact Or.inr ⟨hlt, h⟩
  · next hle =>
      rw [List.getElem?_singleton] at h
      split at h
      · next hzero =>
          cases h
          exact Or.inl ⟨by omega, rfl⟩
      · cases h

/-! ### Steps -/

/-- The client that is taken has been looked at by the coroutine that had it before. -/
def Careful (pool : ClientPool) : Op → Prop
  | .call _ _ => ∀ index, pool.idle.head? = some index →
      ∀ (number : Nat) (flight : Flight) (response : Response),
      pool.flights[number]? = some flight → flight.stage ≠ .recycled index response
  | _ => True

theorem Sound.acquire_new (h : Sound config order careful pool) (hidle : pool.idle = [])
    (form : Form) (request : Request) :
    Sound config order careful
      { pool with
        clients := pool.clients ++ [PooledClient.new pool.flights.length]
        flights := pool.flights
          ++ [⟨form, request, .adding pool.clients.length (config.additions request), none⟩] } := by
  have hkept {position : Nat} {owned : PooledClient} (howned : pool.clients[position]? = some owned)
      (last : PooledClient) : (pool.clients ++ [last])[position]? = some owned := by
    rw [List.getElem?_append_left (List.getElem?_eq_some_iff.mp howned).1]
    exact howned
  refine ⟨h.nodup, h.size, fun index hindex => ?_, fun other found hfound => ?_⟩
  · rw [List.length_append]
    exact Nat.lt_add_right _ (h.idle_lt index hindex)
  · rcases flights_append hfound with ⟨rfl, rfl⟩ | ⟨hlt, hfound⟩
    · refine ⟨nofun, PooledClient.new pool.flights.length,
        ⟨List.getElem?_concat_length, rfl, ?_⟩, rfl⟩
      show pool.clients.length ∉ pool.idle
      rw [hidle]
      exact List.not_mem_nil
    · refine (h.flights other found hfound).frame ⟨fun index client hheld =>
        ⟨hkept hheld.client_eq _, hheld.user, hheld.not_idle⟩, fun index client hclient huser => ?_,
        fun _ index response client _ hclient _ => hkept hclient _⟩
      have hclient : (pool.clients ++ [PooledClient.new pool.flights.length])[index]?
          = some client := hclient
      rw [List.getElem?_append] at hclient
      split at hclient
      · exact hclient
      · rw [List.getElem?_singleton] at hclient
        split at hclient
        · cases hclient
          exact absurd huser (Nat.ne_of_gt hlt)
        · cases hclient

theorem Sound.acquire_idle (h : Sound config order careful pool) {first : Nat} {rest : List Nat}
    (hidle : pool.idle = first :: rest) (hclient : pool.clients[first]? = some client) (form : Form)
    (request : Request) (hcareful : careful → Careful pool (.call form request)) :
    Sound config order careful
      { idle := rest
        clients := pool.clients.set first (client.reset pool.flights.length)
        flights :=
          pool.flights ++ [⟨form, request, .adding first (config.additions request), none⟩] } := by
  have hnodup := h.nodup
  have hsize := h.size
  have hlt := h.idle_lt
  rw [hidle] at hnodup hsize hlt
  have hself : (pool.clients.set first (client.reset pool.flights.length))[first]?
      = some (client.reset pool.flights.length) :=
    List.getElem?_set_self (List.getElem?_eq_some_iff.mp hclient).1
  refine ⟨hnodup.tail, Nat.le_of_succ_le hsize, fun index hindex => ?_,
    fun other found hfound => ?_⟩
  · rw [List.length_set]
    exact hlt index (List.mem_cons_of_mem _ hindex)
  · rcases flights_append hfound with ⟨rfl, rfl⟩ | ⟨hother, hfound⟩
    · exact ⟨nofun, client.reset pool.flights.length,
        ⟨hself, rfl, (List.nodup_cons.mp hnodup).1⟩, rfl⟩
    · refine (h.flights other found hfound).frame
        ⟨fun index owned hheld => ?_, fun index owned howned huser => ?_,
        fun hall index response owned hstage howned _ => ?_⟩
      · have hnot := hheld.not_idle
        rw [hidle] at hnot
        exact ⟨(List.getElem?_set_ne (Ne.symm (List.ne_of_not_mem_cons hnot))).trans
          hheld.client_eq, hheld.user,
          List.not_mem_of_not_mem_cons hnot⟩
      · have howned : (pool.clients.set first (client.reset pool.flights.length))[index]?
            = some owned := howned
        by_cases heq : first = index
        · subst heq
          rw [hself] at howned
          cases howned
          exact absurd huser (Nat.ne_of_gt hother)
        · rwa [List.getElem?_set_ne heq] at howned
      · have hne : first ≠ index := by
          rintro rfl
          exact hcareful hall first (by rw [hidle]; rfl) other found response hfound hstage
        exact (List.getElem?_set_ne hne).trans howned

theorem Sound.acquire (h : Sound config order careful pool) {form : Form} {request : Request}
    (hcareful : careful → Careful pool (.call form request))
    (hstep : pool.acquire config form request = some next) : Sound config order careful next := by
  unfold ClientPool.acquire at hstep
  cases hidle : pool.idle with
  | nil =>
      simp only [hidle, Option.some.injEq] at hstep
      subst hstep
      have hnew := h.acquire_new hidle form request
      rwa [hidle] at hnew
  | cons first rest =>
      simp only [hidle, Option.map_eq_some_iff] at hstep
      obtain ⟨client, hclient, rfl⟩ := hstep
      exact h.acquire_idle hidle hclient form request hcareful

/-- A request that gives its client back. -/
theorem Sound.recycle (h : Sound config order careful pool) (hheld : pool.Held number index client)
    (hflight : ∀ after, after.clients = pool.clients →
      FlightSound config order careful after number changed) :
    Sound config order careful ((pool.setFlight number changed).recycle index) := by
  have hclients : ((pool.setFlight number changed).recycle index).clients = pool.clients := by
    unfold ClientPool.recycle
    split <;> rfl
  have hflights : ((pool.setFlight number changed).recycle index).flights
      = pool.flights.set number changed := by
    unfold ClientPool.recycle
    split <;> rfl
  have hidle : ∀ other ∈ ((pool.setFlight number changed).recycle index).idle,
      other ∈ pool.idle ∨ other = index := by
    intro other hother
    unfold ClientPool.recycle at hother
    split at hother
    · rcases List.mem_append.mp hother with hother | hother
      · exact Or.inl hother
      · exact Or.inr (List.mem_singleton.mp hother)
    · exact Or.inl hother
  refine ⟨?_, ?_, fun other hother => ?_, fun other found hfound => ?_⟩
  · unfold ClientPool.recycle
    split
    · refine List.nodup_append.mpr
        ⟨h.nodup, List.nodup_cons.mpr ⟨List.not_mem_nil, List.nodup_nil⟩, ?_⟩
      rintro position hposition last hlast rfl
      obtain rfl := List.mem_singleton.mp hlast
      exact hheld.not_idle hposition
    · exact h.nodup
  · unfold ClientPool.recycle
    split
    · next hlt =>
        show (pool.idle ++ [index]).length ≤ maxPoolSize
        rw [List.length_append]
        exact hlt
    · exact h.size
  · rw [hclients]
    rcases hidle other hother with hother | rfl
    · exact h.idle_lt other hother
    · exact (List.getElem?_eq_some_iff.mp hheld.client_eq).1
  · rw [hflights] at hfound
    rcases flights_setFlight hfound with ⟨rfl, rfl⟩ | ⟨hne, hfound⟩
    · exact hflight _ hclients
    · refine (h.flights other found hfound).frame ⟨fun position owned howned => ?_,
        fun position owned howned _ => by rwa [hclients] at howned,
        fun _ position response owned _ howned _ => by rwa [hclients]⟩
      refine ⟨by rw [hclients]; exact howned.client_eq, howned.user, fun hposition => ?_⟩
      rcases hidle position hposition with hposition | rfl
      · exact howned.not_idle hposition
      · obtain rfl := Option.some.inj (hheld.client_eq.symm.trans howned.client_eq)
        exact hne (howned.user.symm.trans hheld.user)

theorem Held.update (h : pool.Held number index client) {after : PooledClient}
    (huser : after.user = number) :
    ((pool.setClient index after).setFlight number changed).Held number index after :=
  ⟨List.getElem?_set_self (List.getElem?_eq_some_iff.mp h.client_eq).1, huser, h.not_idle⟩

/-- Right after the response it is in the memory, whatever the memory was before. -/
theorem finds_receive (client : PooledClient) (number : Nat) (response : Response) :
    Finds (client.receive number response) number response := by
  unfold Finds PooledClient.look PooledClient.receive
  by_cases hcontent : response.content = []
  · simp only [hcontent, if_true]
  · simp only [hcontent, if_false, PooledClient.finish, PooledClient.keep, if_true]

theorem user_receive (client : PooledClient) (number : Nat) (response : Response) :
    (client.receive number response).user = client.user := by
  unfold PooledClient.receive
  by_cases htorn : response.torn <;> by_cases hcontent : response.content = [] <;>
    simp only [htorn, hcontent, if_true, if_false] <;> rfl

theorem finds_failed (client : PooledClient) (number : Nat) : Finds client number Response.failed :=
  rfl

theorem Sound.adding (h : Sound config order careful pool)
    (hflight : pool.flights[number]? = some flight) {rest : List Addition}
    (hstage : flight.stage = .adding index rest) (hclient : pool.clients[index]? = some client) :
    pool.Held number index client
      ∧ rest.foldl Addition.apply client.coro
        = (config.additions flight.request).foldl Addition.apply CoroClient.empty := by
  have hsound := (h.flights number flight hflight).stage
  unfold StageSound at hsound
  rw [hstage] at hsound
  obtain ⟨held, hheld, hrest⟩ := hsound
  obtain rfl := Option.some.inj (hclient.symm.trans hheld.client_eq)
  exact ⟨hheld, hrest⟩

theorem Sound.add (h : Sound config order careful pool)
    (hflight : pool.flights[number]? = some flight) {addition : Addition} {rest : List Addition}
    (hstage : flight.stage = .adding index (addition :: rest))
    (hclient : pool.clients[index]? = some client) :
    Sound config order careful
      ((pool.setClient index { client with coro := addition.apply client.coro }).setFlight number
        { flight with stage := .adding index rest }) := by
  obtain ⟨hheld, hrest⟩ := h.adding hflight hstage hclient
  have hwritten := (h.flights number flight hflight).written
  exact h.update hheld hheld.user ⟨hwritten, _, hheld.update hheld.user, hrest⟩

theorem Sound.send (h : Sound config order careful pool)
    (hflight : pool.flights[number]? = some flight) (hstage : flight.stage = .adding index [])
    (hclient : pool.clients[index]? = some client) {text : Bytes}
    (htext : config.sendText order flight.request client.coro = some text) :
    Sound config order careful
      ((pool.setClient index (client.send flight.request)).setFlight number
        { flight with stage := .waiting index, written := some text }) := by
  obtain ⟨hheld, hrest⟩ := h.adding hflight hstage hclient
  refine h.update hheld hheld.user ⟨fun written hsame => ?_, _, hheld.update hheld.user⟩
  cases hsame
  -- All the additions are made, so the client is what it would be after them alone.
  have hcoro : client.coro
      = (config.additions flight.request).foldl Addition.apply CoroClient.empty := hrest
  rw [CoroHttpClient.requestText, ← foldl_additions, ← hcoro]
  exact htext

theorem Sound.fail (h : Sound config order careful pool)
    (hflight : pool.flights[number]? = some flight) (hstage : flight.stage = .adding index [])
    (hclient : pool.clients[index]? = some client) :
    Sound config order careful
      ((pool.setClient index (client.keep .chunks none).finish).setFlight number
        { flight with stage := .answered index Response.failed }) := by
  obtain ⟨hheld, -⟩ := h.adding hflight hstage hclient
  have hwritten := (h.flights number flight hflight).written
  exact h.update hheld hheld.user ⟨hwritten, _, hheld.update hheld.user, finds_failed _ _⟩

theorem Sound.respond (h : Sound config order careful pool)
    (hflight : pool.flights[number]? = some flight) (hstage : flight.stage = .waiting index)
    (hclient : pool.clients[index]? = some client) (response : Response) :
    Sound config order careful
      ((pool.setClient index (client.receive number response)).setFlight number
        { flight with stage := .answered index response }) := by
  obtain ⟨hwritten, hsound⟩ := h.flights number flight hflight
  unfold StageSound at hsound
  rw [hstage] at hsound
  obtain ⟨held, hheld⟩ := hsound
  obtain rfl := Option.some.inj (hclient.symm.trans hheld.client_eq)
  have huser := (user_receive client number response).trans hheld.user
  exact h.update hheld huser ⟨hwritten, _, hheld.update huser, finds_receive client number response⟩

theorem Sound.look (h : Sound config order careful pool)
    (hflight : pool.flights[number]? = some flight) (hclient : pool.clients[index]? = some client)
    {response : Response} (hform : flight.form = .callback)
    (hstage : flight.stage = .answered index response) :
    Sound config order careful
      (pool.setFlight number { flight with
        stage := .looked index response (client.look number response) }) := by
  obtain ⟨hwritten, hsound⟩ := h.flights number flight hflight
  unfold StageSound at hsound
  rw [hstage] at hsound
  obtain ⟨held, hheld, hfinds⟩ := hsound
  obtain rfl := Option.some.inj (hclient.symm.trans hheld.client_eq)
  exact h.setFlight ⟨hwritten, hform, hfinds, _, hheld⟩

/-- Too late: this memory may be that of another response. -/
theorem Sound.look_recycled (h : Sound config order careful pool)
    (hflight : pool.flights[number]? = some flight) (hclient : pool.clients[index]? = some client)
    {response : Response} (hform : flight.form = .coroutine)
    (hstage : flight.stage = .recycled index response) :
    Sound config order careful
      (pool.setFlight number { flight with
        stage := .done response (client.look number response) }) := by
  obtain ⟨hwritten, hsound⟩ := h.flights number flight hflight
  unfold StageSound at hsound
  rw [hstage] at hsound
  refine h.setFlight ⟨hwritten, fun hwhen => ?_⟩
  rcases hwhen with hcallback | hall
  · exact absurd (hform.symm.trans hcallback) (by decide)
  · obtain ⟨owned, howned, huser⟩ := hsound.1 hall
    obtain rfl := Option.some.inj (hclient.symm.trans howned)
    exact hsound.2 client hclient huser

theorem Sound.recycle_answered (h : Sound config order careful pool)
    (hflight : pool.flights[number]? = some flight) {response : Response}
    (hstage : flight.stage = .answered index response) :
    Sound config order careful
      ((pool.setFlight number { flight with
        stage := .recycled index response }).recycle index) := by
  obtain ⟨hwritten, hsound⟩ := h.flights number flight hflight
  unfold StageSound at hsound
  rw [hstage] at hsound
  obtain ⟨held, hheld, hfinds⟩ := hsound
  refine h.recycle hheld fun after hclients =>
    ⟨hwritten, fun _ => ⟨held, ?_, hheld.user⟩, fun client hclient _ => ?_⟩
  · rw [hclients]
    exact hheld.client_eq
  · rw [hclients] at hclient
    obtain rfl := Option.some.inj (hclient.symm.trans hheld.client_eq)
    exact hfinds

theorem Sound.recycle_looked (h : Sound config order careful pool)
    (hflight : pool.flights[number]? = some flight) {response : Response} {seen : Option Bytes}
    (hstage : flight.stage = .looked index response seen) :
    Sound config order careful
      ((pool.setFlight number { flight with stage := .done response seen }).recycle index) := by
  obtain ⟨hwritten, hsound⟩ := h.flights number flight hflight
  unfold StageSound at hsound
  rw [hstage] at hsound
  obtain ⟨_, hseen, held, hheld⟩ := hsound
  exact h.recycle hheld fun after _ => ⟨hwritten, fun _ => hseen⟩

theorem Sound.advance (h : Sound config order careful pool)
    (hflight : pool.flights[number]? = some flight) (hindex : flight.stage.client = some index)
    (hclient : pool.clients[index]? = some client) {op : Op}
    (hstep : pool.advance config order number flight index client op = some next) :
    Sound config order careful next := by
  cases op with
  | call form request => cases hstep
  | add _ =>
      simp only [ClientPool.advance] at hstep
      split at hstep
      · next position addition rest hstage =>
          rw [hstage] at hindex
          cases hindex
          cases hstep
          exact h.add hflight hstage hclient
      · cases hstep
  | send _ connected =>
      simp only [ClientPool.advance] at hstep
      split at hstep
      · next position hstage =>
          rw [hstage] at hindex
          cases hindex
          split at hstep
          · next text htext =>
              cases hstep
              exact h.send hflight hstage hclient htext
          · cases hstep
            exact h.fail hflight hstage hclient
      · cases hstep
  | respond _ response =>
      simp only [ClientPool.advance] at hstep
      split at hstep
      · next position hstage =>
          rw [hstage] at hindex
          cases hindex
          cases hstep
          exact h.respond hflight hstage hclient response
      · cases hstep
  | look _ =>
      simp only [ClientPool.advance] at hstep
      split at hstep
      · next position response hform hstage =>
          rw [hstage] at hindex
          cases hindex
          cases hstep
          exact h.look hflight hclient hform hstage
      · next position response hform hstage =>
          rw [hstage] at hindex
          cases hindex
          cases hstep
          exact h.look_recycled hflight hclient hform hstage
      · cases hstep
  | recycle _ =>
      simp only [ClientPool.advance] at hstep
      split at hstep
      · next position response hform hstage =>
          rw [hstage] at hindex
          cases hindex
          cases hstep
          exact h.recycle_answered hflight hstage
      · next position response seen hform hstage =>
          rw [hstage] at hindex
          cases hindex
          cases hstep
          exact h.recycle_looked hflight hstage
      · cases hstep

theorem Sound.step (h : Sound config order careful pool) {op : Op}
    (hcareful : careful → Careful pool op) (hstep : pool.step config order op = some next) :
    Sound config order careful next := by
  unfold ClientPool.step at hstep
  split at hstep
  · exact h.acquire hcareful hstep
  · obtain ⟨flight, hflight, hstep⟩ := Option.bind_eq_some_iff.mp hstep
    obtain ⟨index, hindex, hstep⟩ := Option.bind_eq_some_iff.mp hstep
    obtain ⟨client, hclient, hstep⟩ := Option.bind_eq_some_iff.mp hstep
    exact h.advance hflight hindex hclient hstep

theorem sound_empty (config : CoroHttpClient) (order : Pairs → Pairs) (careful : Prop) :
    Sound config order careful empty :=
  ⟨List.nodup_nil, Nat.zero_le _, fun _ hindex => absurd hindex List.not_mem_nil,
    fun _ _ hflight => absurd hflight (Option.some_ne_none _).symm⟩

/-! ### Runs -/

theorem sound_of_reachable (h : (system config order).Reachable pool) :
    Sound config order False pool := by
  refine System.Reaches.invariant _ ?_ (fun _ _ _ hsound _ hstep => hsound.step False.elim hstep) h
  rintro _ rfl
  exact sound_empty config order False

theorem sound_of_careful (h : (system config order).Reaches Careful pool) :
    Sound config order True pool := by
  refine System.Reaches.invariant _ ?_
    (fun _ _ _ hsound hcareful hstep => hsound.step (fun _ => hcareful) hstep) h
  rintro _ rfl
  exact sound_empty config order True

theorem Sound.held (h : Sound config order careful pool)
    (hflight : pool.flights[number]? = some flight) (hholds : flight.stage.holds = some index) :
    ∃ client, pool.Held number index client := by
  have hstage := (h.flights number flight hflight).stage
  unfold StageSound at hstage
  cases hcase : flight.stage with
  | adding position rest =>
      rw [hcase] at hstage hholds
      cases hholds
      obtain ⟨client, hclient, _⟩ := hstage
      exact ⟨client, hclient⟩
  | waiting position =>
      rw [hcase] at hstage hholds
      cases hholds
      exact hstage
  | answered position response =>
      rw [hcase] at hstage hholds
      cases hholds
      obtain ⟨client, hclient, _⟩ := hstage
      exact ⟨client, hclient⟩
  | recycled position response =>
      rw [hcase] at hholds
      cases hholds
  | looked position response seen =>
      rw [hcase] at hstage hholds
      cases hholds
      exact hstage.2.2
  | done response seen =>
      rw [hcase] at hholds
      cases hholds

theorem Sound.seen (h : Sound config order careful pool)
    (hflight : pool.flights[number]? = some flight) {response : Response} {seen : Option Bytes}
    (hdone : flight.stage = .done response seen) (hwhen : flight.form = .callback ∨ careful) :
    seen = some response.content := by
  have hstage := (h.flights number flight hflight).stage
  unfold StageSound at hstage
  rw [hdone] at hstage
  exact hstage hwhen

/-- However the steps of the requests are mixed: a client is in one hand at a time, the pool is no
larger than it may be, and what is written for a request is what would be written if there were no
others. -/
theorem requests_apart (h : (system config order).Reachable pool) :
    (∀ (first second index : Nat) (one other : Flight), pool.flights[first]? = some one →
        pool.flights[second]? = some other → one.stage.holds = some index →
          other.stage.holds = some index →
          first = second)
      ∧ (∀ (number index : Nat) (flight : Flight), pool.flights[number]? = some flight →
          flight.stage.holds = some index → index ∉ pool.idle)
      ∧ pool.idle.Nodup ∧ pool.idle.length ≤ maxPoolSize
      ∧ ∀ (number : Nat) (flight : Flight) (text : Bytes), pool.flights[number]? = some flight →
          flight.written = some text → config.requestText order flight.request = some text := by
  have hsound := sound_of_reachable h
  refine ⟨fun first second index one other hone hother hfirst hsecond => ?_,
    fun number index flight hflight hholds => ?_, hsound.nodup, hsound.size,
    fun number flight text hflight => (hsound.flights number flight hflight).written text⟩
  · obtain ⟨client, hclient⟩ := hsound.held hone hfirst
    obtain ⟨found, hfound⟩ := hsound.held hother hsecond
    obtain rfl := Option.some.inj (hclient.client_eq.symm.trans hfound.client_eq)
    exact hclient.user.symm.trans hfound.user
  · obtain ⟨client, hclient⟩ := hsound.held hflight hholds
    exact hclient.not_idle

def localClient : CoroHttpClient := ⟨ascii "a", true, [], []⟩

def shortRequest : Request := ⟨.get, ascii "b", [], [], [], .none⟩

/-- A coroutine gives its client back, the next request begins with it, and the coroutine looks. -/
def lateOps : List Op :=
  [.call .coroutine shortRequest, .send 0 true,
    .respond 0 ⟨200, .chunks, [0x78], false⟩, .recycle 0,
    .call .callback shortRequest, .send 1 true, .look 0]

set_option maxRecDepth 4000 in
theorem requests_apart_late : ∃ pool, (system localClient id).Reachable pool
    ∧ pool.flights.length = 2
    ∧ pool.idle.length ≤ maxPoolSize ∧ ∀ (number : Nat) (flight : Flight) (text : Bytes),
      pool.flights[number]? = some flight → flight.written = some text →
        localClient.requestText id shortRequest = some text := by
  have hrun :
    ((lateOps.foldlM (step localClient id) empty).map fun pool => pool.flights.map (·.request))
      = some [shortRequest, shortRequest] := by decide
  obtain ⟨pool, hpool, hrequests⟩ := Option.map_eq_some_iff.mp hrun
  have hreach : (system localClient id).Reachable pool :=
    System.Reaches.foldlM (fun _ _ _ => trivial) (.init rfl) hpool
  obtain ⟨-, -, -, hsize, hwritten⟩ := requests_apart hreach
  have hlength := congrArg List.length hrequests
  rw [List.length_map] at hlength
  refine ⟨pool, hreach, hlength, hsize, fun number flight text hflight htext => ?_⟩
  have hmem : flight.request ∈ pool.flights.map (·.request) :=
    List.mem_map_of_mem (List.mem_of_getElem? hflight)
  have hrequest : flight.request = shortRequest := by
    rw [hrequests] at hmem
    simpa using hmem
  rw [← hrequest]
  exact hwritten number flight text hflight htext

/-- The callback always sees its own response. The coroutine does if no client is taken between the
return of the client and the look at the response, and otherwise need not. -/
theorem response_seen (config : CoroHttpClient) (order : Pairs → Pairs) :
    (∀ pool, (system config order).Reachable pool →
      ∀ (number : Nat) (flight : Flight) (response : Response)
        (seen : Option Bytes), pool.flights[number]? = some flight → flight.form = .callback →
          flight.stage = .done response seen → seen = some response.content)
      ∧ (∀ pool, (system config order).Reaches Careful pool → ∀ (number : Nat) (flight : Flight)
          (response : Response) (seen : Option Bytes), pool.flights[number]? = some flight →
            flight.stage = .done response seen → seen = some response.content)
      ∧ ∃ pool, (system localClient id).Reachable pool ∧ ∃ (flight : Flight) (response : Response),
          pool.flights[0]? = some flight ∧ response.content ≠ []
            ∧ flight.stage = .done response none := by
  refine ⟨fun pool h number flight response seen hflight hform hdone => ?_,
    fun pool h number flight response seen hflight hdone => ?_, ?_⟩
  · exact (sound_of_reachable h).seen hflight hdone (Or.inl hform)
  · exact (sound_of_careful h).seen hflight hdone (Or.inr trivial)
  · have hrun : ((lateOps.foldlM (step localClient id) empty).bind fun pool =>
        pool.flights[0]?.map (·.stage))
        = some (.done ⟨200, .chunks, [0x78], false⟩ none) := by
      set_option maxRecDepth 4000 in decide
    obtain ⟨pool, hpool, hstage⟩ := Option.bind_eq_some_iff.mp hrun
    obtain ⟨flight, hflight, hdone⟩ := Option.map_eq_some_iff.mp hstage
    exact ⟨pool, System.Reaches.foldlM (fun _ _ _ => trivial) (.init rfl) hpool, flight, _, hflight,
      List.cons_ne_nil _ _, hdone⟩

end ClientPool

end TapSdk.Net
