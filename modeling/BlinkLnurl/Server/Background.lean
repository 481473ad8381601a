import BlinkLnurl.Server.ZapRoutes

/-!
# Sending webhooks

`webhooks/background.rs`: the processor that takes pending deliveries, the task
that sends one and reports what became of it, and the clean-up. Errors of the
store are logged.
-/

namespace BlinkLnurl

open Conc

/-- A write whose error is only logged. -/
def writeWebhook (w : WebhookWrite) : Handler Unit := do
  let _ ← (Store.payment (.webhook w)).attempt
  return ()

/-- `process_webhook_delivery`. Additions saturate. -/
def processWebhookDelivery (delivery : WebhookDelivery) : Handler Unit := do
  let config ← env (.webhookConfig delivery.domain)
  match config with
  | none =>
      if delivery.url.isSome then writeWebhook (.parkWebhookDelivery delivery.id)
      else writeWebhook (.deleteWebhookDelivery delivery.id)
  | some config => do
      let now ← nowMillis
      let sent ← env (.sendWebhook config.url delivery.payload config.secret)
      match sent with
      | .ok () => writeWebhook (.updateWebhookDeliverySuccess delivery.id now config.url)
      | .error e => do
          let retryCount := min (delivery.retryCount + 1) (2 ^ 31 - 1)
          let nextRetryAt := min (now + nextRetryDelay retryCount) (2 ^ 63 - 1)
          writeWebhook (.updateWebhookDeliveryFailure delivery.id retryCount nextRetryAt
            e.statusCode e.body config.url)

/-- The loop over the deliveries taken: the ids of those that get no permit. The
others are sent by tasks of their own. -/
def withoutPermit : List WebhookDelivery → Handler (List Nat)
  | [] => return []
  | delivery :: rest => do
      let permit ← env (.acquirePermit delivery.domain)
      let ids ← withoutPermit rest
      return if permit then ids else delivery.id :: ids

def processPendingWebhookDeliveries : Handler Unit := do
  let taken ← (Store.payment .takePendingWebhookDeliveries).attempt
  match taken with
  | .error _ => return ()
  | .ok deliveries => do
      let unclaimIds ← withoutPermit deliveries
      if unclaimIds = [] then return () else writeWebhook (.unclaimWebhookDeliveries unclaimIds)

/-- A day in milliseconds. -/
def dayMillis : Int := 24 * 60 * 60 * 1000

def cleanupOldWebhookDeliveries (state : State) : Handler Unit := do
  let now ← nowMillis
  writeWebhook (.deleteWebhookDeliveriesOlderThan (now - state.webhookDeliveryTtlDays * dayMillis))

end BlinkLnurl
