import Aavishield.Dataplane.Tables
import Aavishield.Lib.TransitionSystem

/-!
# Invoices

Invoices are paid by payment links of a gateway, which sends webhooks about them, in no
particular order.  A superadmin may ask the gateway about a link and may cancel an invoice.
Between the steps of one request come steps of others.
-/

namespace Aavishield.Billing

open Dataplane (HasID Table)

inductive BillingStatus where
  | pending
  | paid
  | cancelled
  | expired
  deriving DecidableEq

structure BillingRecord where
  id : UUID
  razorpayPaymentLinkID : String
  razorpayPaymentID : String
  status : BillingStatus
  paidAt : Option Time
  deriving DecidableEq

instance : HasID BillingRecord := ⟨BillingRecord.id⟩

def findRecord (records : Table BillingRecord) (id : UUID) : Option BillingRecord :=
  records.rows.find? (·.id == id)

/-- Columns of one row are written (`db.Model(record).Updates`). -/
def updates (records : Table BillingRecord) (id : UUID) (status : BillingStatus)
    (paidAt : Option Time) : Table BillingRecord :=
  records.update
    (fun row => if row.id = id then { row with status := status, paidAt := paidAt.or row.paidAt } else row)
    fun row => by split_ifs <;> rfl

def notePayment (records : Table BillingRecord) (id : UUID) (paymentID : String) :
    Table BillingRecord :=
  records.update (fun row => if row.id = id then { row with razorpayPaymentID := paymentID } else row)
    fun row => by split_ifs <;> rfl

def readStatus : String → Option BillingStatus
  | "paid" => some .paid
  | "cancelled" => some .cancelled
  | "expired" => some .expired
  | _ => none

def applyPaymentLinkStatus (records : Table BillingRecord) (record : BillingRecord)
    (rzStatus : String) (now : Time) : Table BillingRecord :=
  match readStatus rzStatus with
  | none => records
  | some status =>
    if record.status = status then records
    else updates records record.id status
      (if status = .paid ∧ record.paidAt = none then some now else none)

inductive Call where
  | refresh (id : UUID)
  | webhook (linkID status paymentID : String)
  | cancel (id : UUID)

inductive Request where
  | called (call : Call)
  /-- `Refresh` waits for the gateway. -/
  | asking (record : BillingRecord)
  | noting (record : BillingRecord) (paymentID status : String)
  | applying (record : BillingRecord) (status : String)
  /-- `Cancel` waits for the gateway. -/
  | withdrawing (record : BillingRecord)
  | cancelling (record : BillingRecord)
  | answered

def Call.load (records : Table BillingRecord) : Call → Request
  | .refresh id =>
    match findRecord records id with
    | none => .answered
    | some record => if record.razorpayPaymentLinkID = "" then .answered else .asking record
  | .webhook linkID status paymentID =>
    if linkID = "" then .answered
    else match records.rows.find? (·.razorpayPaymentLinkID == linkID) with
    | none => .answered
    | some record => if paymentID = "" then .applying record status else .noting record paymentID status
  | .cancel id =>
    match findRecord records id with
    | none => .answered
    | some record =>
      if record.status = .paid then .answered
      else if record.razorpayPaymentLinkID = "" then .cancelling record
      else .withdrawing record

def Request.advance (records : Table BillingRecord) (answer : Option String) (now : Time) :
    Request → Table BillingRecord × Request
  | .called call => (records, call.load records)
  | .asking record => (records, match answer with
      | none => .answered
      | some status => .applying record status)
  | .noting record paymentID status => (notePayment records record.id paymentID, .applying record status)
  | .applying record status => (applyPaymentLinkStatus records record status now, .answered)
  | .withdrawing record => (records, .cancelling record)
  | .cancelling record => (updates records record.id .cancelled none, .answered)
  | .answered => (records, .answered)

/-- The records, and the webhook calls under way. -/
structure World where
  records : Table BillingRecord
  requests : ℕ → Option Request

def World.initial : World := ⟨.empty, fun _ => none⟩

inductive Action where
  | create (id : UUID) (linkID : String)
  | receive (number : ℕ) (call : Call)
  | advance (number : ℕ) (answer : Option String) (now : Time)

/-- The database answers a call one statement at a time. -/
def step (world : World) : Action → Option World
  | .create id linkID =>
    some { world with records := world.records.insert ⟨id, linkID, "", .pending, none⟩ }
  | .receive number call =>
    match world.requests number with
    | some _ => none
    | none => some { world with requests := Function.update world.requests number (some (.called call)) }
  | .advance number answer now =>
    (world.requests number).map fun request =>
      let (records, later) := request.advance world.records answer now
      ⟨records, Function.update world.requests number (some later)⟩

end Aavishield.Billing
