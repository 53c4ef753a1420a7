import Morse.Tim.Inverse
import Morse.Skbq.PowerSave
import Morse.Yaps.Copies
import Morse.Yaps.Sending
import Morse.Pageset.Commands
import Morse.Raw.Locking
import Morse.Twt.Overlap
import Morse.Pv1.Numbers
import Morse.Pv1.Exchange
import Morse.Ap.Aids
import Morse.Cmd.Matching
import Morse.Ies.Ownership
import Morse.Mbssid.RoundTrip
import Morse.VendorIe.Budget
import Morse.Beacon.Counting
import Morse.Ps.Awake
import Morse.Coredump.WellFormed
import Morse.Pager.HwConservation
import Morse.Pager.SwQueue
import Morse.Watchdog.Counting
import Morse.Tim.AdeRoundTrip
import Morse.Slip.TcpExchange
import Morse.Firmware.LoadersAgree
import Morse.Window.Runs
import Morse.Yaps.Accounting
import Morse.Pageset.ReadingSound
import Morse.PageSlicing.Element
import Morse.Raw.AidIndexes
import Morse.Raw.RpsElement
import Morse.Raw.PrawLifetime
import Morse.Raw.DynamicCycle
import Morse.Raw.CommandOctets
import Morse.S1g.ListenInterval
import Morse.Twt.Rejection
import Morse.S1g.BeaconFields
import Morse.Twt.Parameters
import Morse.Cssid.Fields
import Morse.Pv1.Receive
import Morse.S1g.SwitchConversion
import Morse.Rc.Mcs10
import Morse.Skbq.Aging
import Morse.Cac.Monitoring
import Morse.Cmd.ResponseFrames
import Morse.Rc.Feedback
import Morse.Mmrc.LookAround
import Morse.Mesh.Survival
import Morse.Mesh.Blacklist
import Morse.Mesh.PeeringReads
import Morse.Iface.AllOrNothing
import Morse.Tim.GroupTraffic
import Morse.HwScan.ListedPowers
import Morse.HwScan.Reading
import Morse.BssStats.Enabling
import Morse.Firmware.MacAddress
import Morse.Apf.PacketFilter
import Morse.Firmware.Board
import Morse.Firmware.Tables
import Morse.Hw.Clock
import Morse.Peers.PreAssoc
import Morse.Slip.Reporting
import Morse.Spi.Batches
import Morse.Twt.Replay
import Morse.VendorIe.Filters
import Morse.VendorIe.Receive
import Morse.Sdio.Cmd53
