import EventRelay.Checksum
import EventRelay.Failure

/-!
# Partitions of a topic

A topic is spread over numbered streams.  The key of a message fixes its partition, so that all
messages of a key are in one stream and in order there.
-/

namespace EventRelay

/-- The partition of a key among the given number: the checksum of the key, modulo the number,
with the sign of the number.  Among none there is no partition. -/
def partitionFor (key : String) (partitions : Int) : Except Failure Int :=
  if partitions = 0 then .error .noPartitions
  else .ok (Int.fmod (Checksum.ofText key).toNat partitions)

/-- The name of the stream that holds a partition of a topic. -/
def streamName (topic : String) (partition : Int) : String := s!"{topic}:{partition}"

/-- The name of the topic that takes the messages given up on another one. -/
def deadLetterTopic (topic ending : String) : String := topic ++ ending

end EventRelay
