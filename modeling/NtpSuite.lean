import NtpSuite.Theory.Mobilize
import NtpSuite.Theory.Discard
import NtpSuite.Theory.PollInvariant
import NtpSuite.Theory.Lines
import NtpSuite.Theory.Intersection
import NtpSuite.Theory.SystemPeer
import NtpSuite.Theory.SntpReply
import NtpSuite.Theory.WorkerLookup
import NtpSuite.Theory.RecvQueue
import NtpSuite.Theory.RestrictMatch
import NtpSuite.Theory.RestrictSource
import NtpSuite.Theory.EndpointUse
import NtpSuite.Theory.MonitorDepth
import NtpSuite.Theory.MonitorRate
import NtpSuite.Theory.KeySecrets
import NtpSuite.Theory.KeyCache
import NtpSuite.Theory.PeerIds
import NtpSuite.Theory.ExtenSend
import NtpSuite.Theory.KeySequence
import NtpSuite.Theory.ExtenCopies
import NtpSuite.Theory.CertCache
import NtpSuite.Theory.RequestItems
import NtpSuite.Theory.NtpdcOrder
import NtpSuite.Theory.RemoteErrors
import NtpSuite.Theory.EraUnfolding
import NtpSuite.Theory.EventThrottle
import NtpSuite.Theory.NtpqQuery
import NtpSuite.Theory.CtlReplies
import NtpSuite.Theory.FileNames
import NtpSuite.Theory.Milliseconds
import NtpSuite.Theory.Intervals
import NtpSuite.Theory.DnsRecovery
import NtpSuite.Theory.SntpDigest
import NtpSuite.Theory.ClockDate
