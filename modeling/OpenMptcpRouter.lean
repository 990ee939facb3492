import OpenMptcpRouter.Lib.CString
import OpenMptcpRouter.Lib.Memory
import OpenMptcpRouter.Lib.Run
import OpenMptcpRouter.Fwtool
import OpenMptcpRouter.Httpd.State
import OpenMptcpRouter.Httpd.Appcall
import OpenMptcpRouter.Httpd.Steps
import OpenMptcpRouter.Httpd.Invariant
import OpenMptcpRouter.Httpd.StoreBound
import OpenMptcpRouter.Httpd.Multipart
import OpenMptcpRouter.Httpd.Reassembly
import OpenMptcpRouter.Httpd.Phases
import OpenMptcpRouter.Httpd.Segmentation
import OpenMptcpRouter.Httpd.Commit
import OpenMptcpRouter.Httpd.History
import OpenMptcpRouter.Httpd.Isolation
import OpenMptcpRouter.Uip.Process
import OpenMptcpRouter.Uip.Receive
import OpenMptcpRouter.Uip.Sending
import OpenMptcpRouter.Uip.Delivery
import OpenMptcpRouter.Uip.Calls
import OpenMptcpRouter.Uip.Stream
import OpenMptcpRouter.Uip.Upload
import OpenMptcpRouter.Uip.Arp
import OpenMptcpRouter.Uip.Wire
import OpenMptcpRouter.Uip.Frames
import OpenMptcpRouter.Uip.Answers
import OpenMptcpRouter.Uip.Release
import OpenMptcpRouter.Hush.Lexer
import OpenMptcpRouter.Lib.Digits
import OpenMptcpRouter.Upgrade.Command
import OpenMptcpRouter.Upgrade.Flash
import OpenMptcpRouter.Upgrade.Outcome
import OpenMptcpRouter.Failsafe.Upgrade
import OpenMptcpRouter.Fwtool.Bounds
import OpenMptcpRouter.Fwtool.Manifest
import OpenMptcpRouter.Httpd.Reading
import OpenMptcpRouter.Lib.Fallible
import OpenMptcpRouter.Lib.Regions
import OpenMptcpRouter.Lib.Rounds
import OpenMptcpRouter.Lib.Sha1
import OpenMptcpRouter.Mnf.Codec
import OpenMptcpRouter.Mnf.Command
import OpenMptcpRouter.Mnf.Env
import OpenMptcpRouter.Mnf.Repair
import OpenMptcpRouter.Pack.Boards
import OpenMptcpRouter.Pack.FailStop
import OpenMptcpRouter.Pack.Images
import OpenMptcpRouter.Pack.Ranges
import OpenMptcpRouter.Smem.Mtdparts
import OpenMptcpRouter.Smem.Readers
import OpenMptcpRouter.Smem.RoundTrip
import OpenMptcpRouter.Lib.Crc
import OpenMptcpRouter.R2ec.Response
import OpenMptcpRouter.Lib.Emitting
import OpenMptcpRouter.R2ec.Request
import OpenMptcpRouter.Lib.Heap
import OpenMptcpRouter.Lib.OpenAddressing
import OpenMptcpRouter.Lib.OnesComplement
import OpenMptcpRouter.Hashtable.Search
import OpenMptcpRouter.Hashtable.Store
import OpenMptcpRouter.Hashtable.Qsort
import OpenMptcpRouter.Hashtable.Text
import OpenMptcpRouter.Hashtable.Listing
import OpenMptcpRouter.Hashtable.Saved
import OpenMptcpRouter.Httpd.Pointer
import OpenMptcpRouter.Lib.Blocks
import OpenMptcpRouter.Crashdump.Writers
import OpenMptcpRouter.Crashdump.Tlv
import OpenMptcpRouter.Smem.Bounds
import OpenMptcpRouter.Tftp.StoreBlock
import OpenMptcpRouter.Tftp.Client
import OpenMptcpRouter.Tftp.Transfer
import OpenMptcpRouter.Tftp.Delivery
import OpenMptcpRouter.Tftp.Wraparound
import OpenMptcpRouter.Bootipq.ConfSelect
import OpenMptcpRouter.Migration.Rules
