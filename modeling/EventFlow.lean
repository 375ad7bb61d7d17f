import EventFlow.Framework.Pool
import EventFlow.Framework.Table
import EventFlow.Framework.Sharding
import EventFlow.Services.Entities
import EventFlow.Services.Payment
import EventFlow.Services.Orders
import EventFlow.Services.Fulfilment
import EventFlow.Services.System
import EventFlow.Shared.Grammar
import EventFlow.Shared.RetryEnvironment
import EventFlow.Retry.Interference
import EventFlow.Retry.Handlers
import EventFlow.Retry.Poison
import EventFlow.Retry.Untrusted
import EventFlow.Retry.Frame
import EventFlow.Retry.Notified
import EventFlow.Retry.Ordering
import EventFlow.Orders.Wire
import EventFlow.Orders.Status
import EventFlow.Orders.Creation
import EventFlow.Orders.Totals
import EventFlow.Payments.Store
import EventFlow.Payments.Outcomes
import EventFlow.Payments.Faults
import EventFlow.Payments.Replicas
import EventFlow.Payments.WriteOnce
import EventFlow.Payments.Scaling
import EventFlow.Saga.Paid
import EventFlow.Saga.Validated
import EventFlow.Saga.Causation
import EventFlow.Saga.Persisted
import EventFlow.Shared.ProducerRetry
import EventFlow.Shared.RetrySettings
import EventFlow.Framework.Capped
import EventFlow.Payments.Rules
import EventFlow.Saga.Deeds
import EventFlow.Shared.Catalog
import EventFlow.Saga.Identity
import EventFlow.Saga.Recovery
import EventFlow.Saga.Gateway
import EventFlow.Saga.Isolation
import EventFlow.Saga.Lineage
import EventFlow.Saga.Closure
import EventFlow.Shared.KafkaConfig
