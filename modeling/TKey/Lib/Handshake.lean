import Mathlib.Data.List.Basic

/-!
# Requests that are held until they are answered

A clocked server sees at most one request in each cycle.  It answers at a clock
edge, and the requester takes the response in the cycle that follows, in which
it still makes the same request.  Then the responses that are taken are those
that were given, and rules about the giving of responses hold for the taking.
-/

/-- A server that registers its responses. -/
structure HandshakePort (State Input Request Response : Type) where
  clock : State → Input → State
  request : Input → Option Request
  ready : State → Bool
  response : State → Response
  /-- Only a request that is not answered yet is answered. -/
  answers_open :
    ∀ state input,
      ready (clock state input) = true →
      ready state = false ∧ (request input).isSome = true

namespace HandshakePort

variable {State State' Input Request Response : Type}

section Run

variable (port : HandshakePort State Input Request Response)

/-- The request whose response is taken in a cycle, with the response. -/
def delivery (state : State) (input : Input) : Option (Request × Response) :=
  if port.ready state then
    (port.request input).map fun request => (request, port.response state)
  else
    none

/-- The responses that are taken in a run. -/
def deliveries : State → List Input → List (Request × Response)
  | _, [] => []
  | state, input :: inputs =>
      (port.delivery state input).toList ++
        deliveries (port.clock state input) inputs

/-- The request that is answered at the end of a cycle. -/
def answer (state : State) (input : Input) : Option (Request × Response) :=
  if port.ready (port.clock state input) then
    (port.request input).map fun request =>
      (request, port.response (port.clock state input))
  else
    none

/-- The answers that are given in a run. -/
def answers : State → List Input → List (Request × Response)
  | _, [] => []
  | state, input :: inputs =>
      (port.answer state input).toList ++
        answers (port.clock state input) inputs

/-- A request that is not answered yet is made again in the next cycle. -/
def Held : State → List Input → Prop
  | _, [] => True
  | _, [_] => True
  | state, input :: next :: inputs =>
      (port.ready state = false →
        (port.request input).isSome = true →
        port.request next = port.request input) ∧
        Held (port.clock state input) (next :: inputs)

/-- No request is left open: the last one was answered, or there was none. -/
def Settled (state : State) (inputs : List Input) : Prop :=
  ∀ earlier last,
    inputs = earlier ++ [last] →
    port.request last = none ∨
      port.ready (earlier.foldl port.clock state) = true

end Run

variable {port : HandshakePort State Input Request Response}
variable {state : State}
variable {inputs : List Input}

/-- What a cycle without an open request establishes holds when settled. -/
theorem Settled.rests
    {rested : State → Prop}
    (rests :
      ∀ state input,
        port.request input = none ∨ port.ready state = true →
        rested (port.clock state input))
    (initially : rested state)
    (settled : port.Settled state inputs) :
    rested (inputs.foldl port.clock state) := by
  rcases inputs.eq_nil_or_concat with rfl | ⟨earlier, last, rfl⟩
  · exact initially
  · rw [List.concat_eq_append] at settled ⊢
    rw [List.foldl_append]
    exact rests _ last (settled earlier last rfl)

/-- The first response in a run, when the first request is not answered yet. -/
theorem deliveries_of_not_ready
    {input : Input}
    (notReady : port.ready state = false) :
    port.deliveries state (input :: inputs) =
      port.deliveries (port.clock state input) inputs := by
  rw [deliveries, delivery, notReady]
  rfl

/-- A request that was answered is delivered in the next cycle. -/
theorem deliveries_of_ready
    {input : Input}
    {request : Request}
    (ready : port.ready state = true)
    (requested : port.request input = some request) :
    port.deliveries state (input :: inputs) =
      (request, port.response state) ::
        port.deliveries (port.clock state input) inputs := by
  rw [deliveries, delivery, ready, requested]
  rfl

/-- What is answered at the end of a cycle is taken in the next. -/
theorem delivery_eq_answer
    {input next : Input}
    (held :
      port.ready state = false →
      (port.request input).isSome = true →
      port.request next = port.request input) :
    port.delivery (port.clock state input) next = port.answer state input := by
  unfold delivery answer
  split_ifs with ready
  · obtain ⟨isOpen, requested⟩ := port.answers_open state input ready
    rw [held isOpen requested]
  · rfl

theorem deliveries_cons
    {input : Input}
    (held : port.Held state (input :: inputs)) :
    port.deliveries state (input :: inputs) =
      (port.delivery state input).toList ++
        port.answers state (input :: inputs).dropLast := by
  induction inputs generalizing state input with
  | nil => rfl
  | cons next inputs inductionHypothesis =>
      rw [deliveries, inductionHypothesis held.2,
        delivery_eq_answer held.1]
      rfl

/-- All answers are taken, but one in the last cycle. -/
theorem deliveries_eq_answers
    (notReady : port.ready state = false)
    (held : port.Held state inputs) :
    port.deliveries state inputs = port.answers state inputs.dropLast := by
  cases inputs with
  | nil => rfl
  | cons input inputs =>
      rw [deliveries_cons held, delivery, notReady]
      rfl

section Append

theorem deliveries_append
    (port : HandshakePort State Input Request Response)
    (state : State)
    (first later : List Input) :
    port.deliveries state (first ++ later) =
      port.deliveries state first ++
        port.deliveries (first.foldl port.clock state) later := by
  induction first generalizing state with
  | nil => rfl
  | cons input first inductionHypothesis =>
      rw [List.cons_append, deliveries, deliveries, inductionHypothesis,
        List.append_assoc]
      rfl

/-- Requests are held in a run that follows a settled one. -/
theorem Held.append
    {first later : List Input}
    (held : port.Held state first)
    (settled : port.Settled state first)
    (heldLater : port.Held (first.foldl port.clock state) later) :
    port.Held state (first ++ later) := by
  induction first generalizing state with
  | nil => exact heldLater
  | cons input first inductionHypothesis =>
      cases first with
      | nil =>
          cases later with
          | nil => trivial
          | cons next later =>
              refine ⟨fun notReady requested => ?_, heldLater⟩
              rcases settled [] input rfl with none | ready
              · rw [none] at requested
                cases requested
              · have ready : port.ready state = true := ready
                rw [ready] at notReady
                cases notReady
      | cons next first =>
          refine ⟨held.1, inductionHypothesis held.2 ?_ heldLater⟩
          intro earlier last isLast
          exact settled (input :: earlier) last (congrArg (input :: ·) isLast)

theorem Settled.append
    {first later : List Input}
    (settled : port.Settled state first)
    (settledLater : port.Settled (first.foldl port.clock state) later) :
    port.Settled state (first ++ later) := by
  intro earlier last isLast
  rcases later.eq_nil_or_concat with rfl | ⟨between, final, rfl⟩
  · rw [List.append_nil] at isLast
    exact settled earlier last isLast
  · rw [List.concat_eq_append, ← List.append_assoc] at isLast
    obtain ⟨rfl, single⟩ := List.append_inj' isLast rfl
    obtain rfl := List.singleton_inj.mp single
    rw [List.foldl_append]
    exact settledLater between final (List.concat_eq_append ..)

end Append

section Closing

/-!
Some requests close the server.  A closed server stays closed and its answers
are restricted.
-/

variable {closed : State → Prop}

/-- Answers after a request that closes the server are restricted. -/
theorem restricted_of_closing
    {closes : Request → Prop}
    {restricted : Request × Response → Prop}
    (lasts :
      ∀ state input, closed state → closed (port.clock state input))
    (closing :
      ∀ state input entry,
        port.answer state input = some entry →
        closes entry.1 →
        closed (port.clock state input))
    (restricts :
      ∀ state input entry,
        closed state →
        port.answer state input = some entry →
        restricted entry)
    {before after : List (Request × Response)}
    {entry : Request × Response}
    (answers : port.answers state inputs = before ++ entry :: after)
    (isClosed : closed state ∨ ∃ earlier, earlier ∈ before ∧ closes earlier.1) :
    restricted entry := by
  induction inputs generalizing state before with
  | nil => exact absurd answers.symm (by simp [HandshakePort.answers])
  | cons input inputs inductionHypothesis =>
      rw [HandshakePort.answers] at answers
      cases answered : port.answer state input with
      | none =>
          rw [answered] at answers
          exact
            inductionHypothesis answers (isClosed.imp_left (lasts state input))
      | some first =>
          rw [answered] at answers
          cases before with
          | nil =>
              obtain rfl := (List.cons.inj answers).1
              rcases isClosed with isClosed | ⟨_, none, _⟩
              · exact restricts state input first isClosed answered
              · exact absurd none List.not_mem_nil
          | cons head before =>
              obtain ⟨rfl, tail⟩ := List.cons.inj answers
              apply inductionHypothesis tail
              rcases isClosed with isClosed | ⟨earlier, member, isClosing⟩
              · exact .inl (lasts state input isClosed)
              · rcases List.mem_cons.mp member with rfl | member
                · exact .inl (closing state input earlier answered isClosing)
                · exact .inr ⟨earlier, member, isClosing⟩

variable {Value : Type} [DecidableEq Value]
variable {reads : Request × Response → Option Value}
variable {secret blank : Value}

/-- A secret is given only to a request that closes the server. -/
def GivenOnce
    (port : HandshakePort State Input Request Response)
    (closed : State → Prop)
    (reads : Request × Response → Option Value)
    (secret blank : Value) : Prop :=
  ∀ state input entry value,
    port.answer state input = some entry →
    reads entry = some value →
    value = blank ∨
      ¬ closed state ∧ value = secret ∧ closed (port.clock state input)

/-- A closed server does not give the secret. -/
theorem GivenOnce.nothing
    (once : port.GivenOnce closed reads secret blank)
    (lasts :
      ∀ state input, closed state → closed (port.clock state input))
    (isClosed : closed state)
    (inputs : List Input) :
    ((port.answers state inputs).filterMap reads).filter (· ≠ blank) = [] := by
  induction inputs generalizing state with
  | nil => rfl
  | cons input inputs inductionHypothesis =>
      rw [answers, List.filterMap_append, List.filter_append,
        inductionHypothesis (lasts state input isClosed), List.append_nil]
      cases answered : port.answer state input with
      | none => rfl
      | some entry =>
          cases read : reads entry with
          | none => simp [read]
          | some value =>
              rcases once state input entry value answered read with
                rfl | ⟨isOpen, _⟩
              · simp [read]
              · exact absurd isClosed isOpen

/-- In a run the secret is given at most once. -/
theorem GivenOnce.sublist
    (once : port.GivenOnce closed reads secret blank)
    (lasts :
      ∀ state input, closed state → closed (port.clock state input))
    (state : State)
    (inputs : List Input) :
    (((port.answers state inputs).filterMap reads).filter
      (· ≠ blank)).Sublist [secret] := by
  induction inputs generalizing state with
  | nil => exact List.nil_sublist _
  | cons input inputs inductionHypothesis =>
      have later := inductionHypothesis (port.clock state input)
      rw [answers, List.filterMap_append, List.filter_append]
      cases answered : port.answer state input with
      | none => exact later
      | some entry =>
          cases read : reads entry with
          | none => simpa [read] using later
          | some value =>
              rcases once state input entry value answered read with
                rfl | ⟨_, rfl, isClosed⟩
              · simpa [read] using later
              · rw [once.nothing lasts isClosed inputs, List.append_nil]
                have single :
                    (some entry).toList.filterMap reads = [value] := by
                  simp [read]
                rw [single]
                exact List.filter_sublist

end Closing

section Agreement

/-!
Two servers that agree on everything but part of their responses cannot be told
apart by the rest.
-/

variable {port' : HandshakePort State' Input Request Response}
variable {agree : State → State' → Prop}
variable {state' : State'}

/-- Servers that agree answer at the same time, and agree afterwards. -/
structure Simulates
    (port : HandshakePort State Input Request Response)
    (port' : HandshakePort State' Input Request Response)
    (agree : State → State' → Prop) : Prop where
  request : ∀ input, port'.request input = port.request input
  ready :
    ∀ state state',
      agree state state' → port'.ready state' = port.ready state
  clock :
    ∀ state state' input,
      agree state state' →
      agree (port.clock state input) (port'.clock state' input)

/-- Requests are held for both or for none. -/
theorem Simulates.held
    (simulates : Simulates port port' agree)
    (agrees : agree state state')
    (held : port.Held state inputs) :
    port'.Held state' inputs := by
  induction inputs generalizing state state' with
  | nil => trivial
  | cons input inputs inductionHypothesis =>
      cases inputs with
      | nil => trivial
      | cons next inputs =>
          refine ⟨?_, inductionHypothesis (simulates.clock _ _ _ agrees) held.2⟩
          rw [simulates.ready _ _ agrees, simulates.request,
            simulates.request]
          exact held.1

/-- An observer that sees the same of each answer sees the same of a run. -/
theorem Simulates.answers
    {Observation : Type}
    {observe : Request × Response → Observation}
    (simulates : Simulates port port' agree)
    (same :
      ∀ state state' input,
        agree state state' →
        (port'.answer state' input).map observe =
          (port.answer state input).map observe)
    (agrees : agree state state')
    (inputs : List Input) :
    (port'.answers state' inputs).map observe =
      (port.answers state inputs).map observe := by
  induction inputs generalizing state state' with
  | nil => rfl
  | cons input inputs inductionHypothesis =>
      have head := congrArg Option.toList (same state state' input agrees)
      rw [HandshakePort.answers, HandshakePort.answers, List.map_append,
        List.map_append, inductionHypothesis (simulates.clock _ _ _ agrees),
        ← Option.toList_map, ← Option.toList_map, head]

/-- What an observer sees of the responses that are taken. -/
theorem Simulates.deliveries
    {Observation : Type}
    {observe : Request × Response → Observation}
    (simulates : Simulates port port' agree)
    (same :
      ∀ state state' input,
        agree state state' →
        (port'.answer state' input).map observe =
          (port.answer state input).map observe)
    (agrees : agree state state')
    (notReady : port.ready state = false)
    (held : port.Held state inputs) :
    (port'.deliveries state' inputs).map observe =
      (port.deliveries state inputs).map observe := by
  have notReady' : port'.ready state' = false := by
    rw [simulates.ready _ _ agrees, notReady]
  rw [deliveries_eq_answers notReady' (simulates.held agrees held),
    deliveries_eq_answers notReady held, simulates.answers same agrees]

end Agreement

section Service

/-!
A server that works on one request at a time serves the requests of a run one
after the other, as an abstract server does.
-/

variable {Abstract : Type}
variable {serve : Abstract → Request → Response → Abstract → Prop}
variable {alive : State → Prop}
variable {waits : Abstract → Option Request → State → Prop}
variable {answered : Abstract → Request → Response → State → Prop}
variable {before after abstract : Abstract}

/-- Requests that an abstract server serves, with the responses. -/
inductive Serves
    (serve : Abstract → Request → Response → Abstract → Prop) :
    Abstract → List (Request × Response) → Abstract → Prop where
  | nil (abstract : Abstract) : Serves serve abstract [] abstract
  | cons
      {before next after : Abstract}
      {request : Request}
      {response : Response}
      {later : List (Request × Response)}
      (served : serve before request response next)
      (serves : Serves serve next later after) :
      Serves serve before ((request, response) :: later) after

theorem Serves.append
    {between : Abstract}
    {first later : List (Request × Response)}
    (servesFirst : Serves serve before first between)
    (servesLater : Serves serve between later after) :
    Serves serve before (first ++ later) after := by
  induction servesFirst with
  | nil _ => exact servesLater
  | cons served _ inductionHypothesis =>
      exact .cons served (inductionHypothesis servesLater)

/-- What is served can be cut in two. -/
theorem Serves.split
    {first later : List (Request × Response)}
    (serves : Serves serve before (first ++ later) after) :
    ∃ between,
      Serves serve before first between ∧ Serves serve between later after := by
  induction first generalizing before with
  | nil => exact ⟨before, .nil before, serves⟩
  | cons entry first inductionHypothesis =>
      cases serves with
      | cons served serves =>
          obtain ⟨between, servesFirst, servesLater⟩ :=
            inductionHypothesis serves
          exact ⟨between, .cons served servesFirst, servesLater⟩

/--
How a server goes through a request: it waits for one, has one open, or has
answered one.  All of it holds while the server is `alive`.
-/
structure Services
    (port : HandshakePort State Input Request Response)
    (serve : Abstract → Request → Response → Abstract → Prop)
    (alive : State → Prop)
    (waits : Abstract → Option Request → State → Prop)
    (answered : Abstract → Request → Response → State → Prop) : Prop where
  earlier :
    ∀ state input, alive (port.clock state input) → alive state
  notReady :
    ∀ {abstract pending state},
      waits abstract pending state → port.ready state = false
  ready :
    ∀ {abstract request response state},
      answered abstract request response state →
      port.ready state = true ∧ port.response state = response
  quiet :
    ∀ {abstract state input},
      waits abstract none state →
      port.request input = none →
      alive (port.clock state input) →
      waits abstract none (port.clock state input)
  work :
    ∀ {abstract pending state input request},
      waits abstract pending state →
      (∀ earlier, pending = some earlier → earlier = request) →
      port.request input = some request →
      alive (port.clock state input) →
      waits abstract (some request) (port.clock state input) ∨
        ∃ response next,
          serve abstract request response next ∧
          answered next request response (port.clock state input)
  rest :
    ∀ {abstract request response state input},
      answered abstract request response state →
      port.request input = some request →
      alive (port.clock state input) →
      waits abstract none (port.clock state input)

/-- Where a server is with the requests of a run. -/
inductive Stage
    (services : Services port serve alive waits answered)
    (abstract : Abstract)
    (state : State)
    (inputs : List Input) : Prop where
  | waiting
      (isWaiting : waits abstract none state)
  | working
      (request : Request)
      (isOpen : waits abstract (some request) state)
      (again : ∀ input ∈ inputs.head?, port.request input = some request)
  | answering
      (next : Abstract)
      (request : Request)
      (response : Response)
      (served : serve abstract request response next)
      (isAnswered : answered next request response state)
      (again : ∀ input ∈ inputs.head?, port.request input = some request)

variable {services : Services port serve alive waits answered}

theorem Held.later
    {input : Input}
    (held : port.Held state (input :: inputs)) :
    port.Held (port.clock state input) inputs := by
  cases inputs with
  | nil => trivial
  | cons next inputs => exact held.2

/-- A request that is not answered is made again. -/
theorem Held.again
    {input : Input}
    {request : Request}
    (held : port.Held state (input :: inputs))
    (notReady : port.ready state = false)
    (requested : port.request input = some request) :
    ∀ next ∈ inputs.head?, port.request next = some request := by
  intro next isNext
  cases inputs with
  | nil => cases isNext
  | cons first inputs =>
      obtain rfl := Option.some.inj isNext
      rw [held.1 notReady (Option.isSome_of_mem requested), requested]

/-- A cycle in which a request is open. -/
theorem Services.stage_work
    {input : Input}
    {pending : Option Request}
    {request : Request}
    (held : port.Held state (input :: inputs))
    (lives : alive (port.clock state input))
    (isWaiting : waits abstract pending state)
    (same : ∀ earlier, pending = some earlier → earlier = request)
    (requested : port.request input = some request) :
    Stage services abstract (port.clock state input) inputs := by
  have again := held.again (services.notReady isWaiting) requested
  rcases services.work isWaiting same requested lives with
    isOpen | ⟨response, next, served, isAnswered⟩
  · exact .working request isOpen again
  · exact .answering next request response served isAnswered again

/-- In a cycle a server serves the request whose response is taken. -/
theorem Stage.clock
    {input : Input}
    (stage : Stage services abstract state (input :: inputs))
    (held : port.Held state (input :: inputs))
    (lives : alive (port.clock state input)) :
    ∃ next,
      Serves serve abstract (port.delivery state input).toList next ∧
        Stage services next (port.clock state input) inputs := by
  have nothing
      (notReady : port.ready state = false) :
      (port.delivery state input).toList = [] := by
    rw [delivery, notReady]
    rfl
  cases stage with
  | waiting isWaiting =>
      refine ⟨abstract, ?_, ?_⟩
      · rw [nothing (services.notReady isWaiting)]
        exact .nil abstract
      · cases requested : port.request input with
        | none => exact .waiting (services.quiet isWaiting requested lives)
        | some request =>
            exact
              services.stage_work held lives isWaiting
                (fun _ isSome => nomatch isSome) requested
  | working request isOpen again =>
      refine ⟨abstract, ?_, ?_⟩
      · rw [nothing (services.notReady isOpen)]
        exact .nil abstract
      · exact
          services.stage_work held lives isOpen
            (fun _ isSome => (Option.some.inj isSome).symm) (again input rfl)
  | answering next request response served isAnswered again =>
      have requested := again input rfl
      obtain ⟨ready, isResponse⟩ := services.ready isAnswered
      have delivered :
          (port.delivery state input).toList = [(request, response)] := by
        rw [delivery, ready, requested, isResponse]
        rfl
      refine ⟨next, ?_, .waiting (services.rest isAnswered requested lives)⟩
      rw [delivered]
      exact .cons served (.nil next)

/-- A server that is alive after a run was alive before it. -/
theorem Services.alive_of_run
    (services : Services port serve alive waits answered)
    (lives : alive (inputs.foldl port.clock state)) :
    alive state := by
  induction inputs generalizing state with
  | nil => exact lives
  | cons input inputs inductionHypothesis =>
      exact services.earlier _ _ (inductionHypothesis lives)

/-- A run serves the requests whose responses are taken, in their order. -/
theorem Stage.run
    (stage : Stage services abstract state inputs)
    (held : port.Held state inputs)
    (lives : alive (inputs.foldl port.clock state)) :
    ∃ after, Serves serve abstract (port.deliveries state inputs) after := by
  induction inputs generalizing abstract state with
  | nil => exact ⟨abstract, .nil abstract⟩
  | cons input inputs inductionHypothesis =>
      obtain ⟨next, served, later⟩ :=
        stage.clock held (services.alive_of_run lives)
      obtain ⟨after, serves⟩ := inductionHypothesis later held.later lives
      exact ⟨after, served.append serves⟩

end Service

end HandshakePort
