import MetricCollector.Address.Reader
import MetricCollector.Percentile.Threshold
import MetricCollector.Time.SpanReader

namespace MetricCollector

-- Intervals that the engine cannot run with.
inductive IntervalFault
  | flushIntervalZero
  | sinkTimeoutZero
  | sinkTimeoutTooLong (timeout flushInterval : Span)
  deriving DecidableEq, Repr

def IntervalFault.message : IntervalFault → String
  | flushIntervalZero => "flush interval must be greater than zero"
  | sinkTimeoutZero   => "sink timeout must be greater than zero"
  | sinkTimeoutTooLong timeout flushInterval =>
    "sink timeout " ++ timeout.text ++ " exceeds flush interval " ++ flushInterval.text

inductive SettingFault
  | queueCapacityZero
  | receiverWorkersZero
  | summaryBacklogZero
  | unknownBackend (name : String)
  | listenAddress (e : InvalidListenAddress)
  deriving DecidableEq, Repr

def SettingFault.message : SettingFault → String
  | queueCapacityZero   => "queue capacity must be at least 1"
  | receiverWorkersZero => "receiver workers must be at least 1"
  | summaryBacklogZero  => "summary backlog must be at least 1"
  | unknownBackend name => "unknown backend: " ++ name
  | listenAddress e     => e.message

inductive SettingsError
  | threshold (e : InvalidThreshold)
  | interval (e : IntervalFault)
  | span (e : InvalidSpan)
  | setting (e : SettingFault)
  deriving DecidableEq, Repr

def SettingsError.message : SettingsError → String
  | threshold e => e.message
  | interval e  => "invalid interval: " ++ e.message
  | span e      => e.message
  | setting e   => "invalid setting: " ++ e.message

end MetricCollector
