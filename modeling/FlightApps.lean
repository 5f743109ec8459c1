import FlightApps.Ttc.Safety
import FlightApps.Ttc.Order
import FlightApps.Ttc.Plumbing
import FlightApps.Ttc.Hidden
import FlightApps.Ttc.Groups
import FlightApps.Ttc.Instants
import FlightApps.Ttc.Accounts
import FlightApps.Esup.Reassembly
import FlightApps.Esup.Deadline
import FlightApps.Esup.Delivery
import FlightApps.Esup.Clock
import FlightApps.Esup.RoundTrip
import FlightApps.Rpt.Durable
import FlightApps.Rpt.Reboots
import FlightApps.Meow.Modules
import FlightApps.Adcs.Ambiguity
import FlightApps.Adcs.Agreement
import FlightApps.Adcs.Truth
import FlightApps.Adcs.Frames
import FlightApps.Meow.Reroutes
import FlightApps.Srl.Consistency
import FlightApps.Serial.Counters
import FlightApps.Oem.Reads
import FlightApps.Oem.Integrity
import FlightApps.Ftp.Faults
import FlightApps.Ftp.Uploads
import FlightApps.Ftp.Resume
import FlightApps.Ftp.Rounds
import FlightApps.Ftp.Downloads
import FlightApps.Oem.Registry
import FlightApps.Oem.Deadline
import FlightApps.Oem.ReadBuffer
import FlightApps.Oem.Messages
import FlightApps.Leop.Durable
import FlightApps.Leop.Release
import FlightApps.Leop.Early
import FlightApps.Leop.Final
import FlightApps.Leop.Plan
import FlightApps.Leop.Resumed
import FlightApps.Leop.Restart
import FlightApps.Ltrx.Serving
import FlightApps.Ltrx.Waits
import FlightApps.Ltrx.MessageIds
import FlightApps.Ltrx.Requests
import FlightApps.Ltrx.RoundTrip
import FlightApps.Pay.Download
import FlightApps.Pay.Truthful
import FlightApps.Pay.Commands
import FlightApps.Pay.Resumption
import FlightApps.Pay.RparamRoundTrip
import FlightApps.Serial.Can
import FlightApps.Meow.Copies
import FlightApps.Rf.Ingest
import FlightApps.Meow.Blacklist
import FlightApps.Cactus.Ccsds
import FlightApps.Cactus.Parameters
import FlightApps.Thrust.Answers
import FlightApps.Thrust.Commands
import FlightApps.Thrust.Packet
import FlightApps.Thrust.Runs
import FlightApps.Checksums
import FlightApps.Stx.Directory
import FlightApps.Stx.Transfer
import FlightApps.Kisscam.Camera
import FlightApps.Kisscam.Commands
import FlightApps.Kisscam.Disk
import FlightApps.Kisscam.Paths
import FlightApps.Kisscam.Lines
import FlightApps.Kisscam.Slots
import FlightApps.Kisscam.Downloads
import FlightApps.Kisscam.Runs
