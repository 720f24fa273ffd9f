import Etlantic.Base.Json

/-!
# One sink connector transaction

`write_via_sink_connector` makes at most one call of each kind to the connector
and classifies the outcome.  What the connector does is data: every call
returns a value, raises an `Exception`, or is cancelled.  A call of the model
gives the calls made, in order, and the result.
-/

namespace Etlantic.Connectors

/-! ## The connector -/

/-- What comes of one call to the connector. -/
inductive Outcome (α : Type) where
  | returned (value : α)
  | raised
  | cancelled

/-- The `status` of a receipt; a value that is no text may have no hash. -/
inductive Status where
  | text (name : String)
  | other
  | unhashable
deriving DecidableEq

namespace Status

def committed : Status := .text "committed"

def rolledBack : Status := .text "rolled_back"

def unknown : Status := .text "unknown"

end Status

structure CommitReceipt where
  status : Status
  sessionId : Option String
  provider : Option String
  publicationId : Option String
  message : Option String
  metadata : List (String × Json)

/-- What a provider answers where a receipt is expected. -/
inductive Answer where
  | receipt (receipt : CommitReceipt)
  | other

/-- The object that `begin_write` returns: its identity and its metadata, where it has them. -/
structure Session where
  identity : Option (String × String)
  metadata : Option (List (String × Json))

/-- The plan: its capabilities, provider and metadata, and the effect id of the metadata as
text. -/
structure Plan where
  requiredCapabilities : List String
  provider : Option String
  metadata : List (String × Json)
  effectId : Option String

/-- How `begin_write` ends; an error may say that its effect is unknown. -/
inductive Begin where
  | returned (session : Session)
  | raised (effectUnknown : Bool)
  | cancelled

/-- A sink connector during one transaction. -/
structure SinkConnector where
  planWrite : Outcome Plan
  planWritePartitions : Option (Outcome Plan)
  capabilities : List String
  beginWrite : Begin
  writeBatch : Outcome Unit
  prepare : Outcome Unit
  commit : Outcome Answer
  abort : Outcome Answer
  reconcile : Option (Outcome Answer)

inductive Call where
  | beginWrite
  | writeBatch
  | prepare
  | commit
  | abort
  | reconcile
deriving DecidableEq

/-- How the transaction ends: with a receipt, with an error that is not the provider's
cancellation, or with the cancellation and the receipt attached to it. -/
inductive Result where
  | receipt (receipt : CommitReceipt)
  | raised
  | cancelled (attached : Option CommitReceipt)

structure Transaction where
  calls : List Call
  result : Result

/-! ## The transaction -/

/-- `CommitReceipt(status="unknown", session_id=session.session_id, …)`. -/
def unknownReceipt (session : Session) (message : String) : Option CommitReceipt :=
  session.identity.bind fun identity => session.metadata.map fun metadata =>
    ⟨.unknown, some identity.1, some identity.2, none, some message, metadata⟩

def unsupportedReceipt (session : Session) : Option CommitReceipt :=
  session.identity.map fun identity =>
    ⟨.unknown, some identity.1, some identity.2, none,
      some "Sink returned an unsupported commit status", []⟩

/-- A receipt that could not be built raises. -/
def resultOf : Option CommitReceipt → Result
  | some receipt => .receipt receipt
  | none => .raised

/-- The plan, for the partitions of the context when it names some. -/
def planned (connector : SinkConnector) (partitioned : Bool) : Outcome Plan :=
  if partitioned then
    match connector.planWritePartitions with
    | none => .raised
    | some (.returned plan) =>
        let required := ["write.partition_replace", "idempotency"]
        if required.all (plan.requiredCapabilities.contains ·) &&
            required.all (connector.capabilities.contains ·) then .returned plan
        else .raised
    | some outcome => outcome
  else connector.planWrite

/-- Whether `receipt.status in {"committed", "rolled_back", "unknown"}`; `none` where the status
has no hash. -/
def supported : Status → Option Bool
  | .text name => some (["committed", "rolled_back", "unknown"].contains name)
  | .other => some false
  | .unhashable => none

/-- After `write_batch` or `prepare` raised or was cancelled. -/
def abortStaged (connector : SinkConnector) (session : Session) (cancelled : Bool) : Result :=
  match connector.abort with
  | .returned answer =>
      if cancelled then .cancelled none
      else
        match answer with
        | .receipt receipt =>
            if receipt.status = .rolledBack then .receipt receipt
            else resultOf
              (unknownReceipt session "Sink staging failed and rollback could not be confirmed")
        | .other => resultOf
            (unknownReceipt session "Sink staging failed and rollback could not be confirmed")
  | _ =>
      if cancelled then .cancelled none
      else resultOf
        (unknownReceipt session "Sink staging failed and abort could not be confirmed")

/-- What `reconcile` makes of the receipt of a cancelled commit. -/
def reconciled (receipt : CommitReceipt) : Outcome Answer → CommitReceipt
  | .returned (.receipt result) =>
      if supported result.status = some true then result else receipt
  | _ => receipt

/-- After `commit` was called. -/
def classifyCommit (connector : SinkConnector) (session : Session) : List Call × Result :=
  match connector.commit with
  | .raised => ([], resultOf
      (unknownReceipt session "Sink commit acknowledgement was not received"))
  | .cancelled =>
      match unknownReceipt session
          "Sink commit was cancelled before its outcome was acknowledged" with
      | none => ([], .raised)
      | some receipt =>
          match connector.reconcile with
          | none => ([], .cancelled (some receipt))
          | some outcome => ([.reconcile], .cancelled (some (reconciled receipt outcome)))
  | .returned .other => ([], resultOf
      (unknownReceipt session "Sink returned an invalid commit receipt"))
  | .returned (.receipt receipt) =>
      match supported receipt.status with
      | some true => ([], .receipt receipt)
      | some false => ([], resultOf (unsupportedReceipt session))
      | none => ([], .raised)

/-- From the open session on. -/
def runSession (connector : SinkConnector) (session : Session) : Transaction :=
  match connector.writeBatch with
  | .returned _ =>
      match connector.prepare with
      | .returned _ =>
          let (calls, result) := classifyCommit connector session
          ⟨[.beginWrite, .writeBatch, .prepare, .commit] ++ calls, result⟩
      | .raised =>
          ⟨[.beginWrite, .writeBatch, .prepare, .abort], abortStaged connector session false⟩
      | .cancelled =>
          ⟨[.beginWrite, .writeBatch, .prepare, .abort], abortStaged connector session true⟩
  | .raised => ⟨[.beginWrite, .writeBatch, .abort], abortStaged connector session false⟩
  | .cancelled => ⟨[.beginWrite, .writeBatch, .abort], abortStaged connector session true⟩

def writeViaSinkConnector (connector : SinkConnector) (partitioned : Bool) : Transaction :=
  match planned connector partitioned with
  | .raised => ⟨[], .raised⟩
  | .cancelled => ⟨[], .cancelled none⟩
  | .returned plan =>
      match connector.beginWrite with
      | .cancelled => ⟨[.beginWrite], .cancelled none⟩
      | .raised false => ⟨[.beginWrite], .raised⟩
      | .raised true => ⟨[.beginWrite], .receipt
          ⟨.unknown, plan.effectId, plan.provider, none,
            some "Sink transaction creation acknowledgement was not received", plan.metadata⟩⟩
      | .returned session => runSession connector session

/-! ## Classified outcomes -/

/-- The receipt that the caller gets to see. -/
def Result.receipt? : Result → Option CommitReceipt
  | .receipt given => some given
  | .raised => none
  | .cancelled attached => attached

def Result.Carries (status : Status) (result : Result) : Prop :=
  ∃ receipt, result.receipt? = some receipt ∧ receipt.status = status

/-- A call of the transaction answered with a receipt of this status. -/
def Answered (connector : SinkConnector) (calls : List Call) (call : Call)
    (status : Status) : Prop :=
  call ∈ calls ∧ ∃ receipt : CommitReceipt, receipt.status = status ∧
    match call with
    | .commit => connector.commit = .returned (.receipt receipt)
    | .abort => connector.abort = .returned (.receipt receipt)
    | .reconcile => connector.reconcile = some (.returned (.receipt receipt))
    | _ => False

/-- Staging an open session failed. -/
def StagingFailed (connector : SinkConnector) : Prop :=
  connector.writeBatch ≠ .returned () ∨ connector.prepare ≠ .returned ()

/-- A call of the transaction was cancelled. -/
def WasCancelled (connector : SinkConnector) (calls : List Call) : Prop :=
  (.writeBatch ∈ calls ∧ connector.writeBatch = .cancelled) ∨
    (.prepare ∈ calls ∧ connector.prepare = .cancelled) ∨
    (.commit ∈ calls ∧ connector.commit = .cancelled)

/-- The transaction never aborts a commit, aborts a failed staging once, reports an outcome only
on the word of the provider, and leaves every other outcome unknown. -/
structure Classified (connector : SinkConnector) (t : Transaction) : Prop where
  noAbortAfterCommit : ∀ before after, t.calls = before ++ .commit :: after → .abort ∉ after
  abortsOnce : .writeBatch ∈ t.calls → StagingFailed connector → t.calls.count .abort = 1
  committed : t.result.Carries .committed →
    Answered connector t.calls .commit .committed ∨ Answered connector t.calls .reconcile .committed
  rolledBack : t.result.Carries .rolledBack →
    Answered connector t.calls .abort .rolledBack ∨
      Answered connector t.calls .commit .rolledBack ∨
      Answered connector t.calls .reconcile .rolledBack
  otherwise : .commit ∈ t.calls ∨
      (.abort ∈ t.calls ∧ ¬ Answered connector t.calls .abort .rolledBack) →
    ¬ t.result.Carries .committed → ¬ t.result.Carries .rolledBack →
    (∃ receipt, t.result = .receipt receipt ∧ receipt.status = .unknown) ∨
      (WasCancelled connector t.calls ∧ ∃ attached, t.result = .cancelled attached)

/-! ## When outcomes are classified -/

/-- The attributes of the session that a receipt copies are there. -/
def Readable (session : Session) : Prop := session.identity ≠ none ∧ session.metadata ≠ none

/-- How staging the open session ends. -/
def staged (connector : SinkConnector) : Outcome Unit :=
  match connector.writeBatch with
  | .returned _ => connector.prepare
  | outcome => outcome

/-- Where the transaction has to write a receipt itself, the session lets it; and the status that
`commit` answers can be looked up. -/
structure Accountable (connector : SinkConnector) (session : Session) : Prop where
  failed : staged connector = .raised →
    (∀ receipt, connector.abort = .returned (.receipt receipt) →
      receipt.status ≠ .rolledBack) → Readable session
  unacknowledged : staged connector = .returned () →
    (∀ receipt, connector.commit ≠ .returned (.receipt receipt)) → Readable session
  unsupported : staged connector = .returned () →
    ∀ receipt, connector.commit = .returned (.receipt receipt) →
      supported receipt.status ≠ some true →
      supported receipt.status = some false ∧ session.identity ≠ none

theorem unknownReceipt_of_readable {session : Session} (h : Readable session) (message : String) :
    ∃ receipt, unknownReceipt session message = some receipt ∧ receipt.status = .unknown := by
  obtain ⟨hidentity, hmetadata⟩ := h
  obtain ⟨identity, hidentity⟩ := Option.ne_none_iff_exists'.mp hidentity
  obtain ⟨metadata, hmetadata⟩ := Option.ne_none_iff_exists'.mp hmetadata
  refine ⟨⟨.unknown, some identity.1, some identity.2, none, some message, metadata⟩, ?_, rfl⟩
  unfold unknownReceipt
  rw [hidentity, Option.bind_some, hmetadata]
  rfl

theorem readable_of_unknownReceipt {session : Session} {message : String} {receipt : CommitReceipt}
    (h : unknownReceipt session message = some receipt) :
    Readable session ∧ receipt.status = .unknown := by
  unfold unknownReceipt at h
  cases hidentity : session.identity with
  | none => rw [hidentity] at h; cases h
  | some identity =>
      cases hmetadata : session.metadata with
      | none => rw [hidentity, Option.bind_some, hmetadata] at h; cases h
      | some metadata =>
          rw [hidentity, Option.bind_some, hmetadata] at h
          obtain rfl := Option.some.inj h
          refine ⟨⟨?_, ?_⟩, rfl⟩
          · rw [hidentity]; intro h; cases h
          · rw [hmetadata]; intro h; cases h

theorem resultOf_unknownReceipt (session : Session) (message : String) :
    (Readable session ∧ ∃ receipt, resultOf (unknownReceipt session message) = .receipt receipt ∧
      receipt.status = .unknown) ∨
    (¬ Readable session ∧ resultOf (unknownReceipt session message) = .raised) := by
  cases h : unknownReceipt session message with
  | some receipt =>
      obtain ⟨hreadable, hstatus⟩ := readable_of_unknownReceipt h
      exact .inl ⟨hreadable, receipt, rfl, hstatus⟩
  | none =>
      refine .inr ⟨?_, rfl⟩
      intro hreadable
      obtain ⟨receipt, hsome, -⟩ := unknownReceipt_of_readable hreadable message
      rw [h] at hsome
      cases hsome

/-- A failed staging ends with the confirmed abort or with an unknown outcome. -/
theorem abortStaged_raised (connector : SinkConnector) (session : Session) :
    (∃ receipt, connector.abort = .returned (.receipt receipt) ∧ receipt.status = .rolledBack ∧
      abortStaged connector session false = .receipt receipt) ∨
    ((∀ receipt, connector.abort = .returned (.receipt receipt) → receipt.status ≠ .rolledBack) ∧
      ∃ message, abortStaged connector session false =
        resultOf (unknownReceipt session message)) := by
  unfold abortStaged
  cases habort : connector.abort with
  | returned answer =>
      cases answer with
      | receipt receipt =>
          by_cases hstatus : receipt.status = .rolledBack
          · refine .inl ⟨receipt, rfl, hstatus, ?_⟩
            simp [hstatus]
          · refine .inr ⟨?_, "Sink staging failed and rollback could not be confirmed", ?_⟩
            · rintro given hgiven
              cases hgiven
              exact hstatus
            · simp [hstatus]
      | other =>
          refine .inr ⟨?_, "Sink staging failed and rollback could not be confirmed", rfl⟩
          rintro given hgiven
          cases hgiven
  | raised =>
      refine .inr ⟨?_, "Sink staging failed and abort could not be confirmed", rfl⟩
      rintro given hgiven
      cases hgiven
  | cancelled =>
      refine .inr ⟨?_, "Sink staging failed and abort could not be confirmed", rfl⟩
      rintro given hgiven
      cases hgiven

theorem abortStaged_cancelled (connector : SinkConnector) (session : Session) :
    abortStaged connector session true = .cancelled none := by
  unfold abortStaged
  cases connector.abort <;> rfl

/-- The transaction of an open session by how its staging ends. -/
theorem runSession_cases (connector : SinkConnector) (session : Session) :
    (staged connector = .returned () ∧ connector.writeBatch = .returned () ∧
      connector.prepare = .returned () ∧
      runSession connector session =
        ⟨[.beginWrite, .writeBatch, .prepare, .commit] ++ (classifyCommit connector session).1,
          (classifyCommit connector session).2⟩) ∨
    (staged connector = .raised ∧
      ∃ calls, (calls = [.beginWrite, .writeBatch] ∨ calls = [.beginWrite, .writeBatch, .prepare]) ∧
        runSession connector session = ⟨calls ++ [.abort], abortStaged connector session false⟩) ∨
    (staged connector = .cancelled ∧
      ∃ calls, (calls = [.beginWrite, .writeBatch] ∨ calls = [.beginWrite, .writeBatch, .prepare]) ∧
        WasCancelled connector (calls ++ [.abort]) ∧
        runSession connector session = ⟨calls ++ [.abort], .cancelled none⟩) := by
  unfold runSession staged
  cases hwrite : connector.writeBatch with
  | raised =>
      exact .inr (.inl ⟨rfl, [.beginWrite, .writeBatch], .inl rfl, rfl⟩)
  | cancelled =>
      refine .inr (.inr ⟨rfl, [.beginWrite, .writeBatch], .inl rfl, .inl ⟨by decide, hwrite⟩, ?_⟩)
      dsimp only
      rw [abortStaged_cancelled]
      rfl
  | returned =>
      cases hprepare : connector.prepare with
      | returned => exact .inl ⟨rfl, rfl, rfl, rfl⟩
      | raised =>
          exact .inr (.inl ⟨rfl, [.beginWrite, .writeBatch, .prepare], .inr rfl, rfl⟩)
      | cancelled =>
          refine .inr (.inr ⟨rfl, [.beginWrite, .writeBatch, .prepare], .inr rfl,
            .inr (.inl ⟨by decide, hprepare⟩), ?_⟩)
          dsimp only
          rw [abortStaged_cancelled]
          rfl

theorem supported_eq_true {status : Status} (h : supported status = some true) :
    status = .committed ∨ status = .rolledBack ∨ status = .unknown := by
  cases status with
  | text name =>
      have hname : name = "committed" ∨ name = "rolled_back" ∨ name = "unknown" := by
        have hmem := List.contains_iff_mem.mp (Option.some.inj h)
        simpa using hmem
      rcases hname with rfl | rfl | rfl
      · exact .inl rfl
      · exact .inr (.inl rfl)
      · exact .inr (.inr rfl)
  | other => cases h
  | unhashable => cases h

/-- A cancelled commit keeps the unknown receipt unless `reconcile` answers with another one. -/
theorem reconciled_cases (receipt : CommitReceipt) (outcome : Outcome Answer) :
    reconciled receipt outcome = receipt ∨
      outcome = .returned (.receipt (reconciled receipt outcome)) := by
  unfold reconciled
  split
  · split
    · exact .inr rfl
    · exact .inl rfl
  · exact .inl rfl

/-! ## Every transaction -/

/-- A transaction that ends in an abort. -/
theorem classified_aborted {connector : SinkConnector} {calls : List Call} {result : Result}
    (hcalls : calls = [.beginWrite, .writeBatch] ∨ calls = [.beginWrite, .writeBatch, .prepare])
    (hcarries : ∀ receipt, result.receipt? = some receipt →
      receipt.status = .unknown ∨ (receipt.status = .rolledBack ∧
        connector.abort = .returned (.receipt receipt)))
    (hresult : (∀ receipt, connector.abort = .returned (.receipt receipt) →
        receipt.status ≠ .rolledBack) →
      (∃ receipt, result = .receipt receipt ∧ receipt.status = .unknown) ∨
        (WasCancelled connector (calls ++ [.abort]) ∧ ∃ attached, result = .cancelled attached)) :
    Classified connector ⟨calls ++ [.abort], result⟩ := by
  have hmem : Call.abort ∈ calls ++ [.abort] :=
    List.mem_append_right calls List.mem_cons_self
  refine ⟨?_, ?_, ?_, ?_, ?_⟩
  · intro before after heq
    have hcommit : Call.commit ∈ calls ++ [.abort] := by
      show Call.commit ∈ calls ++ [.abort]
      have heq : calls ++ [.abort] = before ++ .commit :: after := heq
      rw [heq]
      exact List.mem_append_right before List.mem_cons_self
    rcases hcalls with rfl | rfl <;> exact absurd hcommit (by decide)
  · rintro - -
    show (calls ++ [Call.abort]).count Call.abort = 1
    rcases hcalls with rfl | rfl <;> decide
  · rintro ⟨receipt, hreceipt, hstatus⟩
    rcases hcarries receipt hreceipt with hunknown | ⟨hrolled, -⟩
    · rw [hunknown] at hstatus
      exact absurd hstatus (by decide)
    · rw [hrolled] at hstatus
      exact absurd hstatus (by decide)
  · rintro ⟨receipt, hreceipt, hstatus⟩
    rcases hcarries receipt hreceipt with hunknown | ⟨hrolled, habort⟩
    · rw [hunknown] at hstatus
      exact absurd hstatus (by decide)
    · exact .inl ⟨hmem, receipt, hrolled, habort⟩
  · intro hreached hnotCommitted hnotRolled
    have hunconfirmed : ∀ receipt, connector.abort = .returned (.receipt receipt) →
        receipt.status ≠ .rolledBack := by
      intro receipt habort hrolled
      rcases hreached with hcommit | ⟨-, hnot⟩
      · have hcommit : Call.commit ∈ calls ++ [.abort] := hcommit
        rcases hcalls with rfl | rfl <;> exact absurd hcommit (by decide)
      · exact hnot ⟨hmem, receipt, hrolled, habort⟩
    exact hresult hunconfirmed

/-- A transaction that commits. -/
theorem classified_committed {connector : SinkConnector} {extra : List Call} {result : Result}
    (hstaged : ¬ StagingFailed connector) (hextra : extra = [] ∨ extra = [.reconcile])
    (hcarries : ∀ receipt, result.receipt? = some receipt → receipt.status = .unknown ∨
      connector.commit = .returned (.receipt receipt) ∨
      (.reconcile ∈ extra ∧ connector.reconcile = some (.returned (.receipt receipt))))
    (hresult : (∃ receipt, result = .receipt receipt ∧ (receipt.status = .committed ∨
        receipt.status = .rolledBack ∨ receipt.status = .unknown)) ∨
      (connector.commit = .cancelled ∧ ∃ attached, result = .cancelled attached)) :
    Classified connector ⟨[.beginWrite, .writeBatch, .prepare, .commit] ++ extra, result⟩ := by
  have hmem : Call.commit ∈ [Call.beginWrite, .writeBatch, .prepare, .commit] ++ extra :=
    List.mem_append_left extra (by decide)
  have hnoAbort : Call.abort ∉ [Call.beginWrite, .writeBatch, .prepare, .commit] ++ extra := by
    rcases hextra with rfl | rfl <;> decide
  -- A receipt that is not unknown is the word of `commit` or of `reconcile`.
  have hanswered : ∀ status : Status, status ≠ .unknown → result.Carries status →
      Answered connector ([.beginWrite, .writeBatch, .prepare, .commit] ++ extra) .commit status ∨
      Answered connector ([.beginWrite, .writeBatch, .prepare, .commit] ++ extra) .reconcile
        status := by
    rintro status hne ⟨receipt, hreceipt, hstatus⟩
    rcases hcarries receipt hreceipt with hunknown | hcommit | ⟨hcalled, hreconcile⟩
    · exact absurd (hstatus.symm.trans hunknown) hne
    · exact .inl ⟨hmem, receipt, hstatus, hcommit⟩
    · exact .inr ⟨List.mem_append_right _ hcalled, receipt, hstatus, hreconcile⟩
  refine ⟨?_, ?_, ?_, ?_, ?_⟩
  · intro before after heq habort
    have heq : [Call.beginWrite, .writeBatch, .prepare, .commit] ++ extra =
        before ++ .commit :: after := heq
    refine hnoAbort ?_
    rw [heq]
    exact List.mem_append_right before (List.mem_cons_of_mem _ habort)
  · rintro - hfailed
    exact absurd hfailed hstaged
  · exact hanswered .committed (by decide)
  · intro hrolled
    exact .inr (hanswered .rolledBack (by decide) hrolled)
  · rintro - hnotCommitted hnotRolled
    rcases hresult with ⟨receipt, hreceipt, hstatus⟩ | ⟨hcancelled, hattached⟩
    · have hreceipt : result = .receipt receipt := hreceipt
      rcases hstatus with hcommitted | hrolled | hunknown
      · refine absurd ⟨receipt, ?_, hcommitted⟩ hnotCommitted
        show result.receipt? = some receipt
        rw [hreceipt]
        rfl
      · refine absurd ⟨receipt, ?_, hrolled⟩ hnotRolled
        show result.receipt? = some receipt
        rw [hreceipt]
        rfl
      · exact .inl ⟨receipt, hreceipt, hunknown⟩
    · exact .inr ⟨.inr (.inr ⟨hmem, hcancelled⟩), hattached⟩

/-- An error of its own leaves the outcome of a commit or of an abort unclassified. -/
theorem not_classified_of_raised {connector : SinkConnector} {calls : List Call}
    (h : .commit ∈ calls ∨ (.abort ∈ calls ∧ ¬ Answered connector calls .abort .rolledBack)) :
    ¬ Classified connector ⟨calls, .raised⟩ := by
  intro hclassified
  have hnone : ∀ status, ¬ (Result.raised).Carries status := by
    rintro status ⟨receipt, hreceipt, -⟩
    cases hreceipt
  rcases hclassified.otherwise h (hnone _) (hnone _) with ⟨_, hreceipt, _⟩ | ⟨_, _, hcancelled⟩
  · cases hreceipt
  · cases hcancelled

/-- A transaction that neither commits nor aborts, and reports nothing but the unknown. -/
theorem classified_unopened {connector : SinkConnector} {calls : List Call} {result : Result}
    (hcalls : calls = [] ∨ calls = [.beginWrite])
    (hcarries : ∀ receipt, result.receipt? = some receipt → receipt.status = .unknown) :
    Classified connector ⟨calls, result⟩ := by
  have habsent : ∀ call, call ≠ Call.beginWrite → call ∉ calls := by
    intro call hne hmem
    rcases hcalls with rfl | rfl
    · cases hmem
    · exact hne (List.mem_singleton.mp hmem)
  have hnone : ∀ status, status ≠ Status.unknown → ¬ result.Carries status := by
    rintro status hne ⟨receipt, hreceipt, hstatus⟩
    exact hne (hstatus.symm.trans (hcarries receipt hreceipt))
  refine ⟨?_, ?_, ?_, ?_, ?_⟩
  · intro before after heq
    have heq : calls = before ++ .commit :: after := heq
    refine absurd ?_ (habsent .commit (by decide))
    rw [heq]
    exact List.mem_append_right before List.mem_cons_self
  · intro hwritten
    exact absurd hwritten (habsent .writeBatch (by decide))
  · intro hcommitted
    exact absurd hcommitted (hnone .committed (by decide))
  · intro hrolled
    exact absurd hrolled (hnone .rolledBack (by decide))
  · rintro (hcommit | ⟨habort, -⟩)
    · exact absurd hcommit (habsent .commit (by decide))
    · exact absurd habort (habsent .abort (by decide))

/-- A failed staging is classified when the abort is confirmed or the session can be read. -/
theorem classified_failed_iff {connector : SinkConnector} {session : Session} {calls : List Call}
    (hstaged : staged connector = .raised)
    (hcalls : calls = [.beginWrite, .writeBatch] ∨ calls = [.beginWrite, .writeBatch, .prepare]) :
    Classified connector ⟨calls ++ [.abort], abortStaged connector session false⟩ ↔
      Accountable connector session := by
  have hmem : Call.abort ∈ calls ++ [.abort] :=
    List.mem_append_right calls List.mem_cons_self
  have haccountable : ((∀ receipt, connector.abort = .returned (.receipt receipt) →
      receipt.status ≠ .rolledBack) → Readable session) → Accountable connector session := by
    intro h
    refine ⟨fun _ => h, ?_, ?_⟩
    · intro hreturned
      rw [hstaged] at hreturned
      cases hreturned
    · intro hreturned
      rw [hstaged] at hreturned
      cases hreturned
  rcases abortStaged_raised connector session with
    ⟨receipt, habort, hrolled, hresult⟩ | ⟨hunconfirmed, message, hresult⟩
  · rw [hresult]
    constructor
    · intro _
      exact haccountable fun h => absurd hrolled (h receipt habort)
    · intro _
      refine classified_aborted hcalls ?_ ?_
      · rintro given hgiven
        obtain rfl := Option.some.inj hgiven
        exact .inr ⟨hrolled, habort⟩
      · intro h
        exact absurd hrolled (h receipt habort)
  · rw [hresult]
    rcases resultOf_unknownReceipt session message with
      ⟨hreadable, receipt, heq, hunknown⟩ | ⟨hunreadable, heq⟩
    · rw [heq]
      constructor
      · intro _
        exact haccountable fun _ => hreadable
      · intro _
        refine classified_aborted hcalls ?_ ?_
        · rintro given hgiven
          obtain rfl := Option.some.inj hgiven
          exact .inl hunknown
        · intro _
          exact .inl ⟨receipt, rfl, hunknown⟩
    · rw [heq]
      constructor
      · intro hclassified
        refine absurd hclassified (not_classified_of_raised (.inr ⟨hmem, ?_⟩))
        rintro ⟨-, receipt, hrolled, habort⟩
        exact hunconfirmed receipt habort hrolled
      · intro h
        exact absurd (h.failed hstaged hunconfirmed) hunreadable

/-- A commit is classified when the session can be read wherever its receipt is needed. -/
theorem classified_commit_iff {connector : SinkConnector} {session : Session}
    (hstaged : staged connector = .returned ()) (hfailed : ¬ StagingFailed connector) :
    Classified connector
        ⟨[.beginWrite, .writeBatch, .prepare, .commit] ++ (classifyCommit connector session).1,
          (classifyCommit connector session).2⟩ ↔
      Accountable connector session := by
  have hraised : ∀ extra, ¬ Classified connector
      ⟨[.beginWrite, .writeBatch, .prepare, .commit] ++ extra, .raised⟩ := fun extra =>
    not_classified_of_raised (.inl (List.mem_append_left extra (by decide)))
  have hnotRaised : staged connector ≠ .raised := by
    rw [hstaged]
    intro h
    cases h
  -- An outcome that the provider did not put into a receipt.
  have hunacknowledged : ∀ message,
      (∀ receipt, connector.commit ≠ .returned (.receipt receipt)) →
      (Classified connector ⟨[.beginWrite, .writeBatch, .prepare, .commit] ++ [],
          resultOf (unknownReceipt session message)⟩ ↔ Accountable connector session) := by
    intro message hno
    rcases resultOf_unknownReceipt session message with
      ⟨hreadable, receipt, heq, hunknown⟩ | ⟨hunreadable, heq⟩
    · rw [heq]
      constructor
      · intro _
        exact ⟨fun h => absurd h hnotRaised, fun _ _ => hreadable,
          fun _ receipt h => absurd h (hno receipt)⟩
      · intro _
        refine classified_committed hfailed (.inl rfl) ?_ (.inl ⟨receipt, rfl, .inr (.inr hunknown)⟩)
        rintro given hgiven
        obtain rfl := Option.some.inj hgiven
        exact .inl hunknown
    · rw [heq]
      constructor
      · intro hclassified
        exact absurd hclassified (hraised [])
      · intro h
        exact absurd (h.unacknowledged hstaged hno) hunreadable
  unfold classifyCommit
  cases hcommit : connector.commit with
  | raised =>
      refine hunacknowledged _ ?_
      rintro receipt h
      rw [hcommit] at h
      cases h
  | cancelled =>
      have hno : ∀ receipt, connector.commit ≠ .returned (.receipt receipt) := by
        rintro receipt h
        rw [hcommit] at h
        cases h
      cases hreceipt : unknownReceipt session
          "Sink commit was cancelled before its outcome was acknowledged" with
      | none =>
          dsimp only
          constructor
          · intro hclassified
            exact absurd hclassified (hraised [])
          · intro h
            obtain ⟨receipt, hsome, -⟩ :=
              unknownReceipt_of_readable (h.unacknowledged hstaged hno)
                "Sink commit was cancelled before its outcome was acknowledged"
            rw [hreceipt] at hsome
            cases hsome
      | some receipt =>
          obtain ⟨hreadable, hunknown⟩ := readable_of_unknownReceipt hreceipt
          have haccountable : Accountable connector session :=
            ⟨fun h => absurd h hnotRaised, fun _ _ => hreadable,
              fun _ receipt h => absurd h (hno receipt)⟩
          cases hreconcile : connector.reconcile with
          | none =>
              dsimp only
              refine iff_of_true ?_ haccountable
              refine classified_committed hfailed (.inl rfl) ?_ (.inr ⟨hcommit, receipt, rfl⟩)
              rintro given hgiven
              obtain rfl := Option.some.inj hgiven
              exact .inl hunknown
          | some outcome =>
              dsimp only
              refine iff_of_true ?_ haccountable
              refine classified_committed hfailed (.inr rfl) ?_
                (.inr ⟨hcommit, reconciled receipt outcome, rfl⟩)
              rintro given hgiven
              obtain rfl := Option.some.inj hgiven
              rcases reconciled_cases receipt outcome with hsame | hanswer
              · rw [hsame]
                exact .inl hunknown
              · exact .inr (.inr ⟨List.mem_singleton.mpr rfl, hreconcile.trans (congrArg some hanswer)⟩)
  | returned answer =>
      cases answer with
      | other =>
          refine hunacknowledged _ ?_
          rintro receipt h
          rw [hcommit] at h
          cases h
      | receipt receipt =>
          have honly : ∀ given, connector.commit = .returned (.receipt given) → given = receipt := by
            intro given hgiven
            rw [hcommit] at hgiven
            cases hgiven
            rfl
          have haccountable : (supported receipt.status ≠ some true →
              supported receipt.status = some false ∧ session.identity ≠ none) →
              Accountable connector session := by
            intro h
            refine ⟨fun h => absurd h hnotRaised, ?_, ?_⟩
            · intro _ hno
              exact absurd hcommit (hno receipt)
            · rintro - given hgiven hstatus
              obtain rfl := honly given hgiven
              exact h hstatus
          dsimp only
          cases hstatus : supported receipt.status with
          | none =>
              constructor
              · intro hclassified
                exact absurd hclassified (hraised [])
              · intro h
                have hfalse := (h.unsupported hstaged receipt hcommit (by rw [hstatus]; decide)).1
                rw [hstatus] at hfalse
                cases hfalse
          | some supports =>
              cases supports with
              | true =>
                  refine iff_of_true ?_ (haccountable fun h => absurd hstatus h)
                  refine classified_committed hfailed (.inl rfl) ?_
                    (.inl ⟨receipt, rfl, supported_eq_true hstatus⟩)
                  rintro given hgiven
                  obtain rfl := Option.some.inj hgiven
                  exact .inr (.inl hcommit)
              | false =>
                  dsimp only
                  cases hidentity : session.identity with
                  | none =>
                      constructor
                      · intro hclassified
                        have hresult : resultOf (unsupportedReceipt session) = .raised := by
                          unfold unsupportedReceipt
                          rw [hidentity]
                          rfl
                        rw [hresult] at hclassified
                        exact absurd hclassified (hraised [])
                      · intro h
                        exact absurd hidentity
                          (h.unsupported hstaged receipt hcommit (by rw [hstatus]; decide)).2
                  | some identity =>
                      have hresult : resultOf (unsupportedReceipt session) = .receipt
                          ⟨.unknown, some identity.1, some identity.2, none,
                            some "Sink returned an unsupported commit status", []⟩ := by
                        unfold unsupportedReceipt
                        rw [hidentity]
                        rfl
                      rw [hresult]
                      refine iff_of_true ?_ (haccountable fun _ =>
                        ⟨hstatus, by rw [hidentity]; intro h; cases h⟩)
                      refine classified_committed hfailed (.inl rfl) ?_
                        (.inl ⟨_, rfl, .inr (.inr rfl)⟩)
                      rintro given hgiven
                      obtain rfl := Option.some.inj hgiven
                      exact .inl rfl

/-- Every transaction is classified unless it has to read a session that is none or to look up a
status that has no hash. -/
theorem write_classified_iff (connector : SinkConnector) (partitioned : Bool) :
    Classified connector (writeViaSinkConnector connector partitioned) ↔
      ∀ plan session, planned connector partitioned = .returned plan →
        connector.beginWrite = .returned session → Accountable connector session := by
  unfold writeViaSinkConnector
  cases hplan : planned connector partitioned with
  | raised =>
      refine iff_of_true (classified_unopened (.inl rfl) ?_) ?_
      · intro receipt h
        cases h
      · intro plan session h
        cases h
  | cancelled =>
      refine iff_of_true (classified_unopened (.inl rfl) ?_) ?_
      · intro receipt h
        cases h
      · intro plan session h
        cases h
  | returned plan =>
      dsimp only
      cases hbegin : connector.beginWrite with
      | cancelled =>
          refine iff_of_true (classified_unopened (.inr rfl) ?_) ?_
          · intro receipt h
            cases h
          · intro plan session _ h
            cases h
      | raised effectUnknown =>
          cases effectUnknown with
          | false =>
              refine iff_of_true (classified_unopened (.inr rfl) ?_) ?_
              · intro receipt h
                cases h
              · intro plan session _ h
                cases h
          | true =>
              refine iff_of_true (classified_unopened (.inr rfl) ?_) ?_
              · intro receipt h
                obtain rfl := Option.some.inj h
                rfl
              · intro plan session _ h
                cases h
      | returned session =>
          have hcondition : (∀ plan' session', Outcome.returned plan = .returned plan' →
              Begin.returned session = .returned session' → Accountable connector session') ↔
              Accountable connector session := by
            constructor
            · intro h
              exact h plan session rfl rfl
            · intro h plan' session' _ hsession
              cases hsession
              exact h
          rw [hcondition]
          dsimp only
          rcases runSession_cases connector session with
            ⟨hstaged, hwrite, hprepare, hrun⟩ | ⟨hstaged, calls, hcalls, hrun⟩ |
              ⟨hstaged, calls, hcalls, hcancelled, hrun⟩
          · rw [hrun]
            refine classified_commit_iff hstaged ?_
            rintro (h | h)
            · exact h hwrite
            · exact h hprepare
          · rw [hrun]
            exact classified_failed_iff hstaged hcalls
          · rw [hrun]
            have hother : ∀ outcome, staged connector = outcome → outcome ≠ .cancelled → False := by
              intro outcome heq hne
              rw [hstaged] at heq
              exact hne heq.symm
            refine iff_of_true (classified_aborted hcalls ?_ ?_) ⟨?_, ?_, ?_⟩
            · intro receipt h
              cases h
            · intro _
              exact .inr ⟨hcancelled, none, rfl⟩
            · intro h
              exact absurd h (fun h => hother _ h (by intro h; cases h))
            · intro h
              exact absurd h (fun h => hother _ h (by intro h; cases h))
            · intro h
              exact absurd h (fun h => hother _ h (by intro h; cases h))

/-! ## A session that is none -/

/-- A connector whose `begin_write` returns no session and whose commit raises. -/
def sessionless : SinkConnector where
  planWrite := .returned ⟨[], none, [], none⟩
  planWritePartitions := none
  capabilities := []
  beginWrite := .returned ⟨none, none⟩
  writeBatch := .returned ()
  prepare := .returned ()
  commit := .raised
  abort := .raised
  reconcile := none

/-- The started commit is neither reported as unknown nor cancelled. -/
theorem commit_unclassified : ¬ Classified sessionless (writeViaSinkConnector sessionless false) := by
  have hrun : writeViaSinkConnector sessionless false =
      ⟨[.beginWrite, .writeBatch, .prepare, .commit], .raised⟩ := rfl
  rw [hrun]
  exact not_classified_of_raised (.inl (by decide))

end Etlantic.Connectors
