import EventFlow.Shared.RetrySettings
import Mathlib.Data.List.DropRight

namespace EventFlow.Js

section Splitting

/-- `s.split(',')`. -/
def splitCommas (s : String) : List String := (s.toList.splitOn ',').map String.ofList

/-- The pieces together are the list without its separators. -/
theorem flatten_splitOn {α : Type} [DecidableEq α] (a : α) (xs : List α) :
    (xs.splitOn a).flatten = xs.filter (· ≠ a) := by
  induction xs with
  | nil => rfl
  | cons x xs ih =>
    rw [List.splitOn_cons_eq_if_modifyHead]
    by_cases hx : x = a
    · simp [hx, ih]
    · obtain ⟨piece, rest, heq⟩ := List.exists_cons_of_ne_nil (List.splitOn_ne_nil a xs)
      rw [heq] at ih ⊢
      simp only [beq_iff_eq, hx, if_false, List.modifyHead_cons, List.flatten_cons,
        List.cons_append]
      rw [← List.flatten_cons, ih]
      simp [hx]

theorem mem_splitOn {α : Type} [DecidableEq α] {a c : α} {xs : List α} :
    (∃ piece ∈ xs.splitOn a, c ∈ piece) ↔ c ∈ xs ∧ c ≠ a := by
  rw [← List.mem_flatten, flatten_splitOn]
  simp

theorem trimChars_eq_rdropWhile (cs : List Char) :
    trimChars cs = (cs.dropWhile isSpace).rdropWhile isSpace := rfl

theorem trimChars_subset (cs : List Char) : trimChars cs ⊆ cs := by
  intro c hc
  rw [trimChars_eq_rdropWhile] at hc
  exact (List.dropWhile_sublist isSpace).subset ((List.rdropWhile_prefix isSpace _).subset hc)

/-- What `trim` leaves begins with no white space. -/
theorem dropWhile_trimChars (cs : List Char) :
    (trimChars cs).dropWhile isSpace = trimChars cs := by
  rw [trimChars_eq_rdropWhile]
  obtain ⟨back, hback⟩ := List.rdropWhile_prefix isSpace (cs.dropWhile isSpace)
  cases hleft : (cs.dropWhile isSpace).rdropWhile isSpace with
  | nil => rfl
  | cons c rest =>
    rw [hleft, List.cons_append] at hback
    have hhead : isSpace c = false := by
      have h := List.head?_dropWhile_not isSpace cs
      rw [← hback] at h
      simpa using h
    simp [hhead]

/-- Trimming twice is trimming once. -/
theorem trimChars_trimChars (cs : List Char) : trimChars (trimChars cs) = trimChars cs := by
  rw [trimChars_eq_rdropWhile (trimChars cs), dropWhile_trimChars, trimChars_eq_rdropWhile,
    List.rdropWhile_idempotent]

end Splitting

theorem Number.le_max {a c : Number} (ha : a ≠ .nan) (hc : c.isFinite = true) :
    Number.le c (a.max c) = true := by
  obtain ⟨q, hq, rfl⟩ := Number.isFinite_iff.mp hc
  cases a with
  | nan => exact absurd rfl ha
  | posInf => rfl
  | negInf => simp [Number.max, Number.lt, Number.le]
  | fin x hx =>
    by_cases hlt : x < q
    · simp [Number.max, Number.lt, Number.le, hlt]
    · have hle : q ≤ x := not_lt.mp hlt
      simp [Number.max, Number.lt, Number.le, hlt, hle]

end EventFlow.Js

namespace EventFlow.Shared

open Js

section Brokers

/-- `resolveKafkaBrokers`. -/
def resolveKafkaBrokers (env : String → Option String) : List String :=
  ((splitCommas ((env "KAFKA_BOOTSTRAP_SERVERS").getD "localhost:9092")).map trim).filter
    (· ≠ "")

/-- An entry of a broker list: no comma in it, no space around it, not empty. -/
structure BrokerAddress (broker : String) : Prop where
  comma : ',' ∉ broker.toList
  trimmed : trim broker = broker
  ne_empty : broker ≠ ""

theorem mem_resolveKafkaBrokers {env : String → Option String} {broker : String} :
    broker ∈ resolveKafkaBrokers env ↔
      broker ≠ "" ∧ ∃ piece ∈
          ((env "KAFKA_BOOTSTRAP_SERVERS").getD "localhost:9092").toList.splitOn ',',
        String.ofList (trimChars piece) = broker := by
  simp [resolveKafkaBrokers, splitCommas, trim, and_comm]

/-- Whatever the variable holds, each entry of the list is an address. -/
theorem brokerAddress_of_mem {env : String → Option String} {broker : String}
    (h : broker ∈ resolveKafkaBrokers env) : BrokerAddress broker := by
  obtain ⟨hne, piece, hpiece, heq⟩ := mem_resolveKafkaBrokers.mp h
  subst heq
  refine ⟨?_, ?_, hne⟩
  · rw [String.toList_ofList]
    intro hc
    exact (mem_splitOn.mp ⟨piece, hpiece, trimChars_subset piece hc⟩).2 rfl
  · rw [trim, String.toList_ofList, trimChars_trimChars]

/-- Splitting undoes joining. -/
theorem splitCommas_intercalate {brokers : List String} (hne : brokers ≠ [])
    (h : ∀ broker ∈ brokers, ',' ∉ broker.toList) :
    splitCommas (String.intercalate "," brokers) = brokers := by
  have hcomma : ",".toList = [','] := by decide
  have hlists : brokers.map String.toList ≠ [] := by simpa using hne
  rw [splitCommas, String.toList_intercalate, hcomma, List.splitOn_intercalate ',' _ hlists]
  · simp
  · intro cs hcs
    obtain ⟨broker, hbroker, heq⟩ := List.mem_map.mp hcs
    exact heq ▸ h broker hbroker

/-- A list of addresses is read back from its text. -/
theorem resolveKafkaBrokers_intercalate {env : String → Option String} {brokers : List String}
    (h : ∀ broker ∈ brokers, BrokerAddress broker)
    (htext : env "KAFKA_BOOTSTRAP_SERVERS" = some (String.intercalate "," brokers)) :
    resolveKafkaBrokers env = brokers := by
  rw [resolveKafkaBrokers, htext, Option.getD_some]
  by_cases hne : brokers = []
  · rw [hne]
    decide
  · rw [splitCommas_intercalate hne fun broker hb => (h broker hb).comma]
    have htrim : brokers.map trim = brokers :=
      (List.map_congr_left fun broker hb => (h broker hb).trimmed).trans (List.map_id' brokers)
    rw [htrim, List.filter_eq_self]
    intro broker hb
    exact decide_eq_true (h broker hb).ne_empty

/-- The addresses in a text: none exactly when it is commas and white space. -/
theorem brokers_eq_nil_iff {text : String} :
    ((splitCommas text).map trim).filter (· ≠ "") = [] ↔
      ∀ c ∈ text.toList, c = ',' ∨ isSpace c = true := by
  have hblank : ((splitCommas text).map trim).filter (· ≠ "") = [] ↔
      ∀ piece ∈ text.toList.splitOn ',', trimChars piece = [] := by
    simp [splitCommas, trim, List.filter_eq_nil_iff]
  rw [hblank]
  constructor
  · intro h c hc
    by_cases hcomma : c = ','
    · exact .inl hcomma
    · obtain ⟨piece, hpiece, hmem⟩ := mem_splitOn.mpr ⟨hc, hcomma⟩
      exact .inr (trimChars_eq_nil_iff.mp (h piece hpiece) c hmem)
  · intro h piece hpiece
    apply trimChars_eq_nil_iff.mpr
    intro c hc
    obtain ⟨hmem, hcomma⟩ := mem_splitOn.mp ⟨piece, hpiece, hc⟩
    exact (h c hmem).resolve_left hcomma

theorem resolveKafkaBrokers_eq_nil {env : String → Option String} :
    resolveKafkaBrokers env = [] ↔
      ∃ text, env "KAFKA_BOOTSTRAP_SERVERS" = some text ∧
        ∀ c ∈ text.toList, c = ',' ∨ isSpace c = true := by
  rw [resolveKafkaBrokers, brokers_eq_nil_iff]
  cases env "KAFKA_BOOTSTRAP_SERVERS" with
  | none =>
    simp only [Option.getD_none, reduceCtorEq, false_and, exists_false, iff_false]
    intro h
    exact absurd (h 'l' (by decide)) (by decide)
  | some text => simp

/-- The broker list is made of addresses whatever the variable holds, a list of addresses is
read back from its text, and what was resolved once resolves to itself. The list is empty
exactly for a text of nothing but commas and white space. -/
theorem brokers_read_back (env : String → Option String) :
    (∀ broker ∈ resolveKafkaBrokers env, BrokerAddress broker) ∧
      (∀ brokers, (∀ broker ∈ brokers, BrokerAddress broker) →
        env "KAFKA_BOOTSTRAP_SERVERS" = some (String.intercalate "," brokers) →
        resolveKafkaBrokers env = brokers) ∧
      (∀ env', env' "KAFKA_BOOTSTRAP_SERVERS" =
          some (String.intercalate "," (resolveKafkaBrokers env)) →
        resolveKafkaBrokers env' = resolveKafkaBrokers env) ∧
      (resolveKafkaBrokers env = [] ↔ ∃ text, env "KAFKA_BOOTSTRAP_SERVERS" = some text ∧
        ∀ c ∈ text.toList, c = ',' ∨ isSpace c = true) :=
  ⟨fun _ h => brokerAddress_of_mem h, fun _ h htext => resolveKafkaBrokers_intercalate h htext,
    fun _ htext => resolveKafkaBrokers_intercalate (fun _ h => brokerAddress_of_mem h) htext,
    resolveKafkaBrokers_eq_nil⟩

example : resolveKafkaBrokers (fun _ => some " kafka:29092,, localhost:9092, ") =
    ["kafka:29092", "localhost:9092"] := by decide +kernel

end Brokers

section Consumers

variable {env env' : String → Option String} {service service' : ServiceName}

/-- `CONSUMER_GROUP_BY_SERVICE`. -/
def consumerGroupByService : ServiceName → String
  | .orderService => "eventflow.order-service"
  | .paymentService => "eventflow.payment-service"
  | .stockService => "eventflow.stock-service"
  | .notificationService => "eventflow.notification-service"
  | .dlqService => "eventflow.dlq-service"

/-- The service's name in capitals, with underscores for the hyphens. -/
def ServiceName.envSuffix (service : ServiceName) : String :=
  String.ofList ((service.value.toList.map Char.toUpper).map fun c => if c = '-' then '_' else c)

def consumerGroupEnvKey (service : ServiceName) : String :=
  "KAFKA_CONSUMER_GROUP_" ++ service.envSuffix

/-- A trimmed variable; a blank one reads as the empty text, an unset one as none. -/
def trimmedVariable (env : String → Option String) (name : String) : Option String :=
  (env name).map trim

/-- The name given outright: an empty text is falsy. -/
def givenName (env : String → Option String) (name : String) : Option String :=
  (trimmedVariable env name).filter (· ≠ "")

def resolveConsumerGroup (env : String → Option String) (service : ServiceName) : String :=
  match givenName env (consumerGroupEnvKey service) with
  | some explicit => explicit
  | none =>
    let base := consumerGroupByService service
    match givenName env "KAFKA_CONSUMER_GROUP_SUFFIX" with
    | some suffix => base ++ suffix
    | none => base

def consumerClientIdEnvKey (service : ServiceName) : String :=
  "KAFKA_CONSUMER_CLIENT_ID_" ++ service.envSuffix

/-- The nullish fallback takes a blank variable for set, and leaves no suffix then. -/
def consumerClientIdSuffix (env : String → Option String) : Option String :=
  ((trimmedVariable env "KAFKA_CONSUMER_CLIENT_ID_SUFFIX").or
    (trimmedVariable env "HOSTNAME")).filter (· ≠ "")

def resolveConsumerClientId (env : String → Option String) (service : ServiceName) : String :=
  match givenName env (consumerClientIdEnvKey service) with
  | some explicit => explicit
  | none =>
    let base := service.value ++ "-consumer"
    match consumerClientIdSuffix env with
    | some suffix => base ++ "-" ++ suffix
    | none => base

structure KafkaConsumerConnectionInfo where
  service : ServiceName
  clientId : String
  brokers : List String
  groupId : String
  fromBeginning : Bool
  sessionTimeoutMs : Number
  heartbeatIntervalMs : Number

/-- `Number(process.env[name] ?? fallback)`. -/
def numberVariable (env : String → Option String) (name : String) (fallback : Number) : Number :=
  ((env name).map Number.ofText).getD fallback

def resolveConsumerSessionTimeoutMs (env : String → Option String) : Number :=
  numberVariable env "KAFKA_CONSUMER_SESSION_TIMEOUT_MS" 30000

def resolveConsumerHeartbeatIntervalMs (env : String → Option String) : Number :=
  numberVariable env "KAFKA_CONSUMER_HEARTBEAT_INTERVAL_MS" 3000

def getKafkaConsumerConnectionInfo (env : String → Option String) (service : ServiceName) :
    KafkaConsumerConnectionInfo where
  service := service
  clientId := resolveConsumerClientId env service
  brokers := resolveKafkaBrokers env
  groupId := resolveConsumerGroup env service
  fromBeginning := env "KAFKA_FROM_BEGINNING" = some "true"
  sessionTimeoutMs := resolveConsumerSessionTimeoutMs env
  heartbeatIntervalMs := resolveConsumerHeartbeatIntervalMs env

/-- `retry` of a client or a producer. -/
structure KafkaRetry where
  retries : Number
  initialRetryTime : Number
  maxRetryTime : Number
  multiplier : Number

def kafkaRetry (retries : Number) (producerRetry : RetryPolicyConfig) : KafkaRetry where
  retries := retries
  initialRetryTime := producerRetry.baseDelayMs
  maxRetryTime := producerRetry.maxDelayMs
  multiplier := producerRetry.backoffMultiplier

/-- `getKafkaClientConfig`, its blocks laid side by side. -/
structure KafkaClientConfig where
  producerOnlyMode : Bool
  clientId : String
  brokers : List String
  allowAutoTopicCreation : Bool
  retry : KafkaRetry

def getKafkaClientConfig (env : String → Option String) (clientId : String) : KafkaClientConfig :=
  let producerRetry := resolveProducerRetryPolicy env
  { producerOnlyMode := true
    clientId := clientId
    brokers := resolveKafkaBrokers env
    allowAutoTopicCreation := true
    retry := kafkaRetry ((producerRetry.maxAttempts.sub 1).max 0) producerRetry }

/-- `getKafkaConsumerConfig`, its blocks laid side by side. -/
structure KafkaConsumerConfig where
  clientId : String
  brokers : List String
  connectionTimeout : Number
  retry : KafkaRetry
  groupId : String
  sessionTimeout : Number
  heartbeatInterval : Number
  allowAutoTopicCreation : Bool
  fromBeginning : Bool
  autoCommit : Bool

def getKafkaConsumerConfig (env : String → Option String) (service : ServiceName) :
    KafkaConsumerConfig :=
  let connection := getKafkaConsumerConnectionInfo env service
  let producerRetry := resolveProducerRetryPolicy env
  { clientId := connection.clientId
    brokers := connection.brokers
    connectionTimeout := numberVariable env "KAFKA_CONNECTION_TIMEOUT_MS" 10000
    retry := kafkaRetry (producerRetry.maxAttempts.max 3) producerRetry
    groupId := connection.groupId
    sessionTimeout := connection.sessionTimeoutMs
    heartbeatInterval := connection.heartbeatIntervalMs
    allowAutoTopicCreation := true
    fromBeginning := connection.fromBeginning
    autoCommit := true }

/-- Whatever the variables hold, a consumer connects with three retries or more and a producer
with none or more. -/
theorem le_retries (env : String → Option String) (service : ServiceName) (clientId : String) :
    Number.le 3 (getKafkaConsumerConfig env service).retry.retries = true ∧
      Number.le 0 (getKafkaClientConfig env clientId).retry.retries = true := by
  obtain ⟨q, hq, hmax⟩ := Number.isFinite_iff.mp (isFinite_resolveProducer env)
  have hattempts : (resolveProducerRetryPolicy env).maxAttempts ≠ .nan := by
    rw [hmax]
    exact Number.noConfusion
  constructor
  · exact Number.le_max hattempts (isFinite_ofNat (by decide))
  · have hfinite : (1 : Number).isFinite = true := isFinite_ofNat (by decide)
    obtain ⟨r, hr, hone⟩ := Number.isFinite_iff.mp hfinite
    have hless : (resolveProducerRetryPolicy env).maxAttempts.sub 1 ≠ .nan := by
      rw [hone]
      exact Number.sub_fin_ne_nan hattempts hr
    exact Number.le_max hless (isFinite_ofNat (by decide))

/-- The text after a falsy check: nothing when there is none. -/
def groupSuffix (env : String → Option String) : String :=
  (givenName env "KAFKA_CONSUMER_GROUP_SUFFIX").getD ""

theorem resolveConsumerGroup_of_given {name : String}
    (h : givenName env (consumerGroupEnvKey service) = some name) :
    resolveConsumerGroup env service = name := by
  rw [resolveConsumerGroup, h]

theorem resolveConsumerGroup_of_none
    (h : givenName env (consumerGroupEnvKey service) = none) :
    resolveConsumerGroup env service = consumerGroupByService service ++ groupSuffix env := by
  rw [resolveConsumerGroup, h, groupSuffix]
  cases givenName env "KAFKA_CONSUMER_GROUP_SUFFIX" with
  | none => simp
  | some suffix => rfl

theorem consumerGroupByService_eq (service : ServiceName) :
    consumerGroupByService service = "eventflow." ++ service.value := by
  cases service <;> decide

/-- No two services' names begin alike. -/
theorem ServiceName.eq_of_head? (h : service.value.toList.head? = service'.value.toList.head?) :
    service = service' := by
  cases service <;> cases service' <;> first | rfl | exact absurd h (by decide)

theorem ServiceName.eq_of_append {rest rest' : String}
    (h : service.value ++ rest = service'.value ++ rest') : service = service' := by
  have hlists : service.value.toList ++ rest.toList = service'.value.toList ++ rest'.toList := by
    rw [← String.toList_append, ← String.toList_append, h]
  have hhead (s : ServiceName) (cs : List Char) :
      (s.value.toList ++ cs).head? = s.value.toList.head? := by
    cases s <;> rfl
  apply ServiceName.eq_of_head?
  rw [← hhead service rest.toList, hlists, hhead]

theorem consumerGroupByService_append_inj {rest rest' : String}
    (h : consumerGroupByService service ++ rest = consumerGroupByService service' ++ rest') :
    service = service' := by
  rw [consumerGroupByService_eq, consumerGroupByService_eq, String.append_assoc,
    String.append_assoc] at h
  exact ServiceName.eq_of_append (String.append_right_inj _ |>.mp h)

/-- Two services meet in one group only where one of them was given the group of the other. -/
theorem given_of_same_group (hne : service ≠ service')
    (h : resolveConsumerGroup env service = resolveConsumerGroup env' service') :
    givenName env (consumerGroupEnvKey service) = some (resolveConsumerGroup env' service') ∨
      givenName env' (consumerGroupEnvKey service') = some (resolveConsumerGroup env service) := by
  cases hgiven : givenName env (consumerGroupEnvKey service) with
  | some name =>
    rw [← h, resolveConsumerGroup_of_given hgiven]
    exact .inl rfl
  | none =>
    cases hgiven' : givenName env' (consumerGroupEnvKey service') with
    | some name =>
      rw [h, resolveConsumerGroup_of_given hgiven']
      exact .inr rfl
    | none =>
      rw [resolveConsumerGroup_of_none hgiven, resolveConsumerGroup_of_none hgiven'] at h
      exact absurd (consumerGroupByService_append_inj h) hne

/-- The client id of a service that was given none. -/
def withSuffix (base : String) : Option String → String
  | some suffix => base ++ "-" ++ suffix
  | none => base

theorem withSuffix_inj {base : String} {a b : Option String} :
    withSuffix base a = withSuffix base b ↔ a = b := by
  have hlonger (x : String) : base ++ "-" ++ x ≠ base := by
    intro h
    have hlength := congrArg String.length h
    simp only [String.length_append] at hlength
    have hdash : "-".length = 1 := by decide
    omega
  cases a with
  | none =>
    cases b with
    | none => simp
    | some y => simpa [withSuffix] using (hlonger y).symm
  | some x =>
    cases b with
    | none => simpa [withSuffix] using hlonger x
    | some y => simp [withSuffix, String.append_right_inj]

theorem resolveConsumerClientId_of_none
    (h : givenName env (consumerClientIdEnvKey service) = none) :
    resolveConsumerClientId env service =
      withSuffix (service.value ++ "-consumer") (consumerClientIdSuffix env) := by
  rw [resolveConsumerClientId, h]
  cases consumerClientIdSuffix env <;> rfl

theorem resolveConsumerClientId_of_given {name : String}
    (h : givenName env (consumerClientIdEnvKey service) = some name) :
    resolveConsumerClientId env service = name := by
  rw [resolveConsumerClientId, h]

end Consumers

section Containers

/-- The environment of one container: what all of them share, and its own host name. -/
def containerEnv (shared : String → Option String) (hostname : String) : String → Option String :=
  Function.update shared "HOSTNAME" (some hostname)

variable {shared : String → Option String} {hostname hostname' : String}

theorem givenName_containerEnv {name : String} (h : name ≠ "HOSTNAME") :
    givenName (containerEnv shared hostname) name = givenName shared name := by
  rw [givenName, givenName, trimmedVariable, trimmedVariable, containerEnv,
    Function.update_of_ne h]

theorem consumerGroupEnvKey_ne (service : ServiceName) :
    consumerGroupEnvKey service ≠ "HOSTNAME" := by
  cases service <;> decide

theorem consumerClientIdEnvKey_ne (service : ServiceName) :
    consumerClientIdEnvKey service ≠ "HOSTNAME" := by
  cases service <;> decide

/-- The host name has no part in the group. -/
theorem resolveConsumerGroup_containerEnv (service : ServiceName) :
    resolveConsumerGroup (containerEnv shared hostname) service =
      resolveConsumerGroup shared service := by
  rw [resolveConsumerGroup, resolveConsumerGroup, givenName_containerEnv (consumerGroupEnvKey_ne _),
    givenName_containerEnv (by decide)]

theorem consumerClientIdSuffix_containerEnv :
    consumerClientIdSuffix (containerEnv shared hostname) =
      ((trimmedVariable shared "KAFKA_CONSUMER_CLIENT_ID_SUFFIX").or
        (some (trim hostname))).filter (· ≠ "") := by
  have hsuffix : trimmedVariable (containerEnv shared hostname) "KAFKA_CONSUMER_CLIENT_ID_SUFFIX" =
      trimmedVariable shared "KAFKA_CONSUMER_CLIENT_ID_SUFFIX" := by
    rw [trimmedVariable, containerEnv, Function.update_of_ne (by decide), trimmedVariable]
  rw [consumerClientIdSuffix, hsuffix, trimmedVariable.eq_def _ "HOSTNAME", containerEnv,
    Function.update_self, Option.map_some]

theorem filter_some_inj {x y : String} :
    (some x).filter (· ≠ "") = (some y).filter (· ≠ "") ↔ x = y := by
  by_cases hx : x = "" <;> by_cases hy : y = "" <;> simp [Option.filter, hx, hy, eq_comm]

/-- Two replicas have one client id exactly when their host names agree up to white space, or
a variable stands before the host name: an id for the service, or a suffix, be it blank. -/
theorem same_clientId_iff (service : ServiceName) :
    resolveConsumerClientId (containerEnv shared hostname) service =
        resolveConsumerClientId (containerEnv shared hostname') service ↔
      givenName shared (consumerClientIdEnvKey service) ≠ none ∨
        shared "KAFKA_CONSUMER_CLIENT_ID_SUFFIX" ≠ none ∨ trim hostname = trim hostname' := by
  have hgiven (host : String) :
      givenName (containerEnv shared host) (consumerClientIdEnvKey service) =
        givenName shared (consumerClientIdEnvKey service) :=
    givenName_containerEnv (consumerClientIdEnvKey_ne service)
  cases hname : givenName shared (consumerClientIdEnvKey service) with
  | some name =>
    rw [resolveConsumerClientId_of_given ((hgiven _).trans hname),
      resolveConsumerClientId_of_given ((hgiven _).trans hname)]
    simp
  | none =>
    rw [resolveConsumerClientId_of_none ((hgiven _).trans hname),
      resolveConsumerClientId_of_none ((hgiven _).trans hname), withSuffix_inj,
      consumerClientIdSuffix_containerEnv, consumerClientIdSuffix_containerEnv, trimmedVariable]
    cases shared "KAFKA_CONSUMER_CLIENT_ID_SUFFIX" with
    | some suffix => simp
    | none =>
      rw [Option.map_none, Option.none_or, Option.none_or, filter_some_inj]
      simp

/-- Replicas of a service join one group. Services join different groups, in whatever
containers, exactly when no name given to one of them is the group of another. -/
theorem containers_told_apart (shared : String → Option String) :
    (∀ service hostname hostname',
      (getKafkaConsumerConfig (containerEnv shared hostname) service).groupId =
        (getKafkaConsumerConfig (containerEnv shared hostname') service).groupId) ∧
    ((∀ service service' hostname hostname',
        (getKafkaConsumerConfig (containerEnv shared hostname) service).groupId =
          (getKafkaConsumerConfig (containerEnv shared hostname') service').groupId →
        service = service') ↔
      ∀ service service', service ≠ service' →
        givenName shared (consumerGroupEnvKey service) ≠
          some (resolveConsumerGroup shared service')) ∧
    ∀ service hostname hostname',
      (getKafkaConsumerConfig (containerEnv shared hostname) service).clientId =
          (getKafkaConsumerConfig (containerEnv shared hostname') service).clientId ↔
        givenName shared (consumerClientIdEnvKey service) ≠ none ∨
          shared "KAFKA_CONSUMER_CLIENT_ID_SUFFIX" ≠ none ∨ trim hostname = trim hostname' := by
  have hgroup (hostname : String) (service : ServiceName) :
      (getKafkaConsumerConfig (containerEnv shared hostname) service).groupId =
        resolveConsumerGroup shared service := resolveConsumerGroup_containerEnv service
  refine ⟨fun service _ _ => (hgroup _ service).trans (hgroup _ service).symm, ?_,
    fun service _ _ => same_clientId_iff service⟩
  constructor
  · intro hapart service service' hne hgiven
    apply hne
    apply hapart service service' "" ""
    rw [hgroup, hgroup, resolveConsumerGroup_of_given hgiven]
  · intro hgiven service service' hostname hostname' hsame
    by_contra hne
    rw [hgroup, hgroup] at hsame
    obtain h | h := given_of_same_group hne hsame
    · exact hgiven service service' hne h
    · exact hgiven service' service (Ne.symm hne) h

end Containers

end EventFlow.Shared
