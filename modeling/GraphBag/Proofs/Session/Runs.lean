import GraphBag.Session.Client
import Mathlib.Data.List.Induction

/-
  Whole runs of a client.  Whatever is done with it, the replies
  it has handed out and the ones still queued are the prepared
  replies in their order, its log is the calls that were served,
  and a call that is refused leaves no trace.

  Main declarations:
    * `Operation`
    * `Call.check`
    * `Client.services`
    * `Client.perform_call`
    * `Client.after_conserves`
-/

namespace GraphBag

------------------------------------------------------------
-- Operations and Calls
------------------------------------------------------------

/- What can be done with a client and its driver. -/
inductive Operation where
  | connect
  | disconnect
  | pushRows (rows : List Row)
  | pushError (cause : DriverError)
  | execute (bag : Bag)
  | executeBatch (bags : List Bag)
  | dispatch (command : Command)

/- A call: what it runs, its route, and the response's format. -/
structure Call where
  compiled : Except CompileError Command
  route : Route
  format : Format

namespace Operation

/- The call that an operation makes, if it makes one. -/
def call? (maxDepth : Nat) : Operation → Option Call
  | .execute bag =>
      some
        { compiled := (Processor.mk maxDepth).compile bag
          route := if bag.command = .retrieve then .read else .write
          format := bag.format }
  | .executeBatch bags =>
      some
        { compiled := (Processor.mk maxDepth).compileBatch bags
          route := .write
          format := .set }
  | .dispatch command =>
      some
        { compiled := .ok command
          route :=
            if isReadScript command.script then .read else .write
          format := .set }
  | _ => none

/- The reply that an operation prepares, if it prepares one. -/
def reply? : Operation → Option Reply
  | .pushRows rows => some (.rows rows)
  | .pushError cause => some (.fail cause)
  | _ => none

/- The credentials that are held after an operation. -/
def credentials
    (config : Config)
    (held : Option Credentials) :
    Operation → Option Credentials
  | .connect => some config.credentials
  | .disconnect => none
  | _ => held

end Operation

namespace Call

/-
  The command of a call, or why the call is refused: it does not
  compile, else it is in another dialect, else the driver is
  closed.
-/
def check (call : Call) (isOpen : Bool) : Except Failure Command :=
  match call.compiled with
  | .error cause => .error (.compile cause)
  | .ok command =>
      if command.dialect ≠ "orientSQL" then
        .error
          (.driver (.dialectMismatch "orientSQL" command.dialect))
      else if isOpen then
        .ok command
      else
        .error (.driver .notOpen)

/- The answer that a reply gives to a call. -/
def respond (call : Call) : Option Reply → Except Failure Response
  | some (.rows rows) => .ok ⟨rows, .orient, call.format⟩
  | some (.fail cause) => .error (.driver cause)
  | none => .ok ⟨[], .orient, call.format⟩

end Call

------------------------------------------------------------
-- Runs
------------------------------------------------------------

/- A served call: its entry in the log and the reply it took. -/
structure Service where
  entry : Route × Command
  reply : Option Reply

namespace Client

/- Does an operation; a call among them has an answer. -/
def perform
    (c : Client) :
    Operation → Option (Except Failure Response) × Client
  | .connect => (none, c.connect)
  | .disconnect => (none, c.disconnect)
  | .pushRows rows =>
      (none, { c with driver := c.driver.pushReply (.rows rows) })
  | .pushError cause =>
      (none, { c with driver := c.driver.pushReply (.fail cause) })
  | .execute bag =>
      let (answer, c) := c.execute bag
      (some answer, c)
  | .executeBatch bags =>
      let (answer, c) := c.executeBatch bags
      (some answer, c)
  | .dispatch command =>
      let (answer, c) := c.dispatch command
      (some answer, c)

/- The client after operations. -/
def after (c : Client) (operations : List Operation) : Client :=
  operations.foldl (fun c operation => (c.perform operation).2) c

/- The call that an operation has served, if it has one. -/
def service? (c : Client) (operation : Operation) : Option Service :=
  match operation.call? c.config.maxDepth with
  | none => none
  | some call =>
      match call.check c.isOpen with
      | .error _ => none
      | .ok command =>
          some ⟨(call.route, command), c.driver.replies.head?⟩

/- The calls that are served in a run, in their order. -/
def services (c : Client) : List Operation → List Service
  | [] => []
  | operation :: rest =>
      (c.service? operation).toList ++
        (c.perform operation).2.services rest

theorem after_concat
    (c : Client)
    (operations : List Operation)
    (operation : Operation) :
    c.after (operations ++ [operation]) =
      ((c.after operations).perform operation).2 := by
  simp [after, List.foldl_append]

theorem services_concat
    (c : Client)
    (operations : List Operation)
    (operation : Operation) :
    c.services (operations ++ [operation]) =
      c.services operations ++
        ((c.after operations).service? operation).toList := by
  induction operations generalizing c with
  | nil => simp [services, after]
  | cons first rest ih =>
      rw [List.cons_append, services, services, ih,
        List.append_assoc]
      rfl

------------------------------------------------------------
-- One Call
------------------------------------------------------------

/- A client of an OrientDB driver under a configuration. -/
structure Wired (c : Client) (config : Config) : Prop where
  dialect : c.driver.dialect = "orientSQL"
  shape : c.driver.shape = .orient
  processor : c.processor = ⟨config.maxDepth⟩
  config : c.config = config

variable {c : Client} {config : Config}

/- The client after a call that is served. -/
def serve (c : Client) (entry : Route × Command) : Client :=
  { c with
    driver :=
      { c.driver with
        replies := c.driver.replies.tail
        log := c.driver.log ++ [entry] } }

/- The answer to a call and the client after it. -/
def handle
    (c : Client)
    (call : Call) :
    Except Failure Response × Client :=
  match call.check c.isOpen with
  | .error cause => (.error cause, c)
  | .ok command =>
      (call.respond c.driver.replies.head?,
        c.serve (call.route, command))

/- The driver answers a call as its next reply says. -/
theorem answer_eq_respond
    (hc : c.Wired config)
    (call : Call)
    (reply : Option Reply) :
    ((c.driver.answer reply).mapError .driver).map
        (·.withFormat call.format) =
      call.respond reply := by
  unfold Driver.answer Call.respond
  rw [hc.shape]
  cases reply with
  | none => rfl
  | some reply =>
      cases reply with
      | rows rows => rfl
      | fail cause => rfl

/- A command is run as a call that compiles to it. -/
theorem run_eq_handle
    (hc : c.Wired config)
    (command : Command)
    (isRead : Bool)
    (format : Format) :
    ((c.run command isRead).1.map (·.withFormat format),
        (c.run command isRead).2) =
      c.handle ⟨.ok command, .ofRead isRead, format⟩ := by
  unfold run handle Call.check
  rw [hc.dialect]
  by_cases hDialect : command.dialect = "orientSQL"
  · cases hOpen : c.driver.isOpen with
    | true =>
        have hAnswer :=
          answer_eq_respond hc
            ⟨.ok command, .ofRead isRead, format⟩
            c.driver.replies.head?
        simp [Driver.execute, isOpen, serve, hDialect, hOpen,
          ← hAnswer]
    | false =>
        simp [Driver.execute, isOpen, hDialect, hOpen,
          Except.mapError, Except.map]
  · simp [hDialect, Except.map]

/- The response to a command alone is a set. -/
theorem run_withFormat_set
    (c : Client)
    (command : Command)
    (isRead : Bool) :
    (c.run command isRead).1.map (·.withFormat .set) =
      (c.run command isRead).1 := by
  unfold run Driver.execute
  by_cases hDialect : command.dialect = c.driver.dialect
  · rw [if_pos hDialect]
    cases c.driver.isOpen with
    | false => rfl
    | true =>
        cases c.driver.replies.head? with
        | none => rfl
        | some reply =>
            cases reply with
            | rows rows => rfl
            | fail cause => rfl
  · rw [if_neg hDialect]
    rfl

/- Every call is answered as specified. -/
theorem perform_call
    (hc : c.Wired config)
    {operation : Operation}
    {call : Call}
    (hCall : operation.call? config.maxDepth = some call) :
    c.perform operation =
      (some (c.handle call).1, (c.handle call).2) := by
  cases operation with
  | connect | disconnect | pushRows | pushError => cases hCall
  | execute bag =>
      cases hCall
      have hRoute :
          Route.ofRead bag.command.isRead =
            if bag.command = .retrieve then .read else .write := by
        cases bag.command <;> rfl
      rw [perform, execute, compile, hc.processor]
      cases hCompile : (Processor.mk config.maxDepth).compile bag with
      | error cause => rfl
      | ok command =>
          rw [← hRoute, ← run_eq_handle hc]
          rfl
  | executeBatch bags =>
      cases hCall
      rw [perform, executeBatch, compileBatch, hc.processor]
      cases hCompile :
          (Processor.mk config.maxDepth).compileBatch bags with
      | error cause => rfl
      | ok command =>
          have hRoute : Route.write = .ofRead false := rfl
          rw [hRoute, ← run_eq_handle hc]
          rfl
  | dispatch command =>
      cases hCall
      -- No format is asked for here: the driver's own is a set.
      have hRun :=
        run_eq_handle hc command (isReadScript command.script) .set
      rw [run_withFormat_set, Route.ofRead] at hRun
      rw [← hRun]
      rfl

/- An operation that makes a call does nothing besides. -/
theorem plain_of_call
    {maxDepth : Nat}
    {operation : Operation}
    {call : Call}
    (hCall : operation.call? maxDepth = some call) :
    operation.reply? = none ∧
      ∀ held, operation.credentials config held = held := by
  cases operation with
  | connect | disconnect | pushRows | pushError => cases hCall
  | execute | executeBatch | dispatch =>
      exact ⟨rfl, fun held => rfl⟩

/-
  The books of one operation: what it hands out comes off the
  queue before what it prepares goes on, its call is logged if
  it is served, and all else stays.
-/
theorem perform_books
    (hc : c.Wired config)
    (operation : Operation) :
    ∃ replies,
      (c.service? operation).toList.filterMap (·.reply) ++ replies =
          c.driver.replies ++ operation.reply?.toList ∧
        (c.perform operation).2 =
          { c with
            driver :=
              { c.driver with
                credentials :=
                  operation.credentials config c.driver.credentials
                replies := replies
                log :=
                  c.driver.log ++
                    (c.service? operation).toList.map (·.entry) } } := by
  cases hCall : operation.call? config.maxDepth with
  | none =>
      have hService : c.service? operation = none := by
        simp [service?, hc.config, hCall]
      rw [hService]
      refine ⟨_, rfl, ?_⟩
      cases operation with
      | connect | disconnect =>
          simp [perform, connect, disconnect, Driver.connect,
            Driver.disconnect, Operation.credentials,
            Operation.reply?, hc.config]
      | pushRows | pushError =>
          simp [perform, Driver.pushReply, Operation.credentials,
            Operation.reply?]
      | execute | executeBatch | dispatch => cases hCall
  | some call =>
      rcases plain_of_call hCall with ⟨hReply, hCredentials⟩
      rw [perform_call hc hCall, hReply, hCredentials]
      cases hCheck : call.check c.isOpen with
      | error cause =>
          have hService : c.service? operation = none := by
            simp [service?, hc.config, hCall, hCheck]
          rw [hService, handle, hCheck]
          refine ⟨c.driver.replies, by simp, by simp⟩
      | ok command =>
          have hService :
              c.service? operation =
                some ⟨(call.route, command),
                  c.driver.replies.head?⟩ := by
            simp [service?, hc.config, hCall, hCheck]
          rw [hService, handle, hCheck]
          refine ⟨c.driver.replies.tail, ?_, rfl⟩
          cases c.driver.replies with
          | nil => rfl
          | cons reply rest => simp

------------------------------------------------------------
-- Whole Runs
------------------------------------------------------------

/- The books of a run: what it has done to a client. -/
structure Accounts
    (c : Client)
    (config : Config)
    (operations : List Operation) : Prop where
  wired : (c.after operations).Wired config
  credentials :
    (c.after operations).driver.credentials =
      operations.foldl
        (fun held operation => operation.credentials config held)
        c.driver.credentials
  log :
    (c.after operations).driver.log =
      c.driver.log ++ (c.services operations).map (·.entry)
  replies :
    (c.services operations).filterMap (·.reply) ++
        (c.after operations).driver.replies =
      c.driver.replies ++ operations.filterMap (·.reply?)

/- One more operation keeps the books. -/
theorem Accounts.concat
    {operations : List Operation}
    (h : c.Accounts config operations)
    (operation : Operation) :
    c.Accounts config (operations ++ [operation]) := by
  have hWired := h.wired
  rcases perform_books hWired operation with
    ⟨replies, hReplies, hAfter⟩
  rw [← after_concat] at hAfter
  refine ⟨?_, ?_, ?_, ?_⟩
  · rw [hAfter]
    exact ⟨hWired.dialect, hWired.shape, hWired.processor,
      hWired.config⟩
  · rw [hAfter, List.foldl_append, ← h.credentials]
    rfl
  · rw [hAfter, services_concat, List.map_append,
      ← List.append_assoc, ← h.log]
  · have hPrepared :
        [operation].filterMap (·.reply?) = operation.reply?.toList :=
      rfl
    rw [hAfter, services_concat, List.filterMap_append,
      List.filterMap_append, List.append_assoc, hReplies, hPrepared,
      ← List.append_assoc, ← List.append_assoc, h.replies]

/- Every run keeps the books. -/
theorem accounts
    (hc : c.Wired config)
    (operations : List Operation) :
    c.Accounts config operations := by
  induction operations using List.reverseRecOn with
  | nil =>
      refine ⟨hc, rfl, ?_, ?_⟩
      · simp [after, services]
      · simp [after, services]
  | append_singleton operations operation ih =>
      exact ih.concat operation

/-
  Over every run of a client of a fresh driver, the replies that
  were handed out, followed by the ones still queued, are the
  prepared ones in their order, and the log is the served calls.
  At any point a call is refused, for the first reason there is,
  and changes nothing, or it takes the next reply, if there is
  one, answers with it and is logged.
-/
theorem after_conserves (config : Config) :
    ∃ client,
      Client.withConfig .orient config = .ok client ∧
        ∀ operations : List Operation,
          (client.services operations).filterMap (·.reply) ++
              (client.after operations).driver.replies =
            operations.filterMap (·.reply?) ∧
          (client.after operations).driver.log =
            (client.services operations).map (·.entry) ∧
          (client.after operations).driver.credentials =
            operations.foldl
              (fun held operation =>
                operation.credentials config held)
              none ∧
          ∀ operation call,
            operation.call? config.maxDepth = some call →
              (∀ cause,
                call.check (client.after operations).isOpen =
                    .error cause →
                  (client.after operations).perform operation =
                    (some (.error cause),
                      client.after operations)) ∧
              (∀ command,
                call.check (client.after operations).isOpen =
                    .ok command →
                  (client.after operations).perform operation =
                    (some
                      (call.respond
                        (client.after operations).driver.replies.head?),
                      { client.after operations with
                        driver :=
                          { (client.after operations).driver with
                            replies :=
                              (client.after operations).driver.replies.tail
                            log :=
                              (client.after operations).driver.log ++
                                [(call.route, command)] } })) := by
  have hWired :
      Wired ⟨.orient, ⟨config.maxDepth⟩, config⟩ config :=
    ⟨rfl, rfl, rfl, rfl⟩
  refine ⟨⟨.orient, ⟨config.maxDepth⟩, config⟩, rfl, ?_⟩
  intro operations
  have hBooks := accounts hWired operations
  refine ⟨hBooks.replies, hBooks.log, hBooks.credentials, ?_⟩
  intro operation call hCall
  have hPerform := perform_call hBooks.wired hCall
  refine ⟨?_, ?_⟩
  · intro cause hCheck
    rw [hPerform, handle, hCheck]
  · intro command hCheck
    rw [hPerform, handle, hCheck]
    rfl

/-
  A closed driver refuses a call and keeps the failure that is
  queued; an open one hands out that failure, which reads the
  same, and logs the call.
-/
theorem after_conserves_queuedNotOpen :
    ∃ client,
      Client.withConfig .orient {} = .ok client ∧
        (client.after [.pushError .notOpen]).perform (.execute {}) =
          (some (.error (.driver .notOpen)),
            client.after [.pushError .notOpen]) ∧
        ((client.after [.pushError .notOpen, .connect]).perform
            (.execute {})).1 =
          some (.error (.driver .notOpen)) ∧
        ((client.after [.pushError .notOpen, .connect]).perform
            (.execute {})).2.driver.log =
          [(.read, ⟨"SELECT FROM V", "orientSQL"⟩)] := by
  rcases after_conserves {} with ⟨client, hClient, hRun⟩
  refine ⟨client, hClient, ?_⟩
  cases hClient
  have hClosed :=
    ((hRun [.pushError .notOpen]).2.2.2 (.execute {}) _ rfl).1
      (.driver .notOpen) rfl
  have hOpen :=
    ((hRun [.pushError .notOpen, .connect]).2.2.2
      (.execute {}) _ rfl).2 ⟨"SELECT FROM V", "orientSQL"⟩ rfl
  refine ⟨hClosed, ?_, ?_⟩
  · rw [hOpen]
    rfl
  · rw [hOpen]
    rfl

end Client

end GraphBag
