import Ndpi.Source.CustomRules
import Ndpi.Lib.CString

/-!
# The configuration parameters

`ndpi_config.c:98-272` and `ndpi_private.h:203-367`: the fields of the configuration
that parameters set, and the table `cfg_params` in its order.
-/
namespace Ndpi.Source.Configuration
open Source.CustomRules
open Lib.CString (chars)

/-- The fields of `ndpi_detection_module_config_struct` of type `int`. -/
inductive IntField where
  | httpRequestContentTypeEnabled
  | httpRefererEnabled
  | httpHostEnabled
  | httpUsernameEnabled
  | httpPasswordEnabled
  | httpRespContentTypeEnabled
  | httpRespServerEnabled
  | tlsCertificateExpireInXDays
  | tlsAppBlocksTrackingEnabled
  | tlsHeuristics
  | tlsHeuristicsMaxPackets
  | tlsSha1FingerprintEnabled
  | tlsVersionsSupportedEnabled
  | tlsAlpnNegotiatedEnabled
  | tlsCipherEnabled
  | tlsCertServerNamesEnabled
  | tlsCertValidityEnabled
  | tlsCertIssuerEnabled
  | tlsCertSubjectEnabled
  | tlsBrowserEnabled
  | tlsJa3sFingerprintEnabled
  | tlsJa4cFingerprintEnabled
  | tlsJa4rFingerprintEnabled
  | tlsJaDataEnabled
  | tlsJaIgnoreEphemeralExtensions
  | tlsNdpifpIgnoreSniExtension
  | tlsSubclassificationEnabled
  | tlsMaxNumBlocksToAnalyze
  | tlsBlocksShowTiming
  | quicSubclassificationEnabled
  | smtpOpportunisticTlsEnabled
  | imapOpportunisticTlsEnabled
  | popOpportunisticTlsEnabled
  | ftpOpportunisticTlsEnabled
  | sipAttributeFromEnabled
  | sipAttributeFromImsiEnabled
  | sipAttributeToEnabled
  | sipAttributeToImsiEnabled
  | sshHasshFingerprintEnabled
  | sshHasshDataEnabled
  | stunOpportunisticTlsEnabled
  | stunMaxPacketsExtraDissection
  | stunMappedAddressEnabled
  | stunResponseOriginEnabled
  | stunOtherAddressEnabled
  | stunRelayedAddressEnabled
  | stunPeerAddressEnabled
  | bittorrentHashEnabled
  | ssdpMetadataEnabled
  | ntpMetadataEnabled
  | dnsSubclassificationEnabled
  | dnsParseResponseEnabled
  | httpParseResponseEnabled
  | httpSubclassificationEnabled
  | ooklaAggressiveness
  | zoomMaxPacketsExtraDissection
  | rtpSearchForStun
  | rtpMaxPacketsExtraDissection
  | openvpnHeuristics
  | openvpnHeuristicsNumMsgs
  | openvpnSubclassificationByIp
  | wireguardSubclassificationByIp
  | maxPacketsToProcess
  | directionDetectEnabled
  | trackPayloadEnabled
  | useClientIpInGuess
  | useClientPortInGuess
  | tcpAckPaylodHeuristic
  | fullyEncryptedHeuristic
  | libgcryptInit
  | guessOnGiveup
  | guessIpBeforePort
  | computeEntropy
  | addressCacheSize
  | fpcEnabled
  | hostnameDnsCheckEnabled
  | tcpFingerprintEnabled
  | tcpFingerprintRawEnabled
  | tcpFingerprintFormat
  | ndpiFingerprintEnabled
  | ndpiFingerprintFormat
  | tlsNdpifpIgnoreTcpFingerprint
  | flowRiskListsEnabled
  | riskAnonymousSubscriberListIcloudprivaterelayEnabled
  | riskAnonymousSubscriberListTorExitNodesEnabled
  | riskCrawlerBotListEnabled
  | logLevel
  | ooklaCacheNumEntries
  | ooklaCacheTtl
  | ooklaCacheScope
  | bittorrentCacheNumEntries
  | bittorrentCacheTtl
  | bittorrentCacheScope
  | stunCacheNumEntries
  | stunCacheTtl
  | stunCacheScope
  | tlsCertCacheNumEntries
  | tlsCertCacheTtl
  | tlsCertCacheScope
  | miningCacheNumEntries
  | miningCacheTtl
  | miningCacheScope
  | msteamsCacheNumEntries
  | msteamsCacheTtl
  | msteamsCacheScope
  | fpcDnsCacheNumEntries
  | fpcDnsCacheTtl
  | fpcDnsCacheScope
  | signalCacheNumEntries
  | signalCacheTtl
  | signalCacheScope
  deriving DecidableEq, Repr

/-- Its bit masks. -/
inductive MaskField where
  | debugBitmask
  | ipListBitmask
  | monitoring
  | detectionBitmask
  | flowriskBitmask
  | flowriskInfoBitmask
  deriving DecidableEq, Repr

/-- `cfg_param_type` together with what the setter and the getter of the type are
given: the field, and the limits of a number. -/
inductive ParamKind where
  | enableDisable (field : IntField)
  | int (field : IntField) (limits : Option (Text × Text))
  | protocolEnableDisable (field : MaskField)
  | filenameConfig
  | flowriskEnableDisable (field : MaskField)
  deriving DecidableEq, Repr

/-- `cfg_param`; `onlyWithGlobalCtx` stands for the only callback there is. -/
structure CfgParam where
  proto : Option Text
  param : Text
  defaultValue : Option Text
  kind : ParamKind
  onlyWithGlobalCtx : Bool
  deriving DecidableEq, Repr

/-- An entry with `CFG_PARAM_ENABLE_DISABLE`. -/
def switch (proto : Option String) (param defaultValue : String) (field : IntField) : CfgParam :=
  ⟨proto.map chars, chars param, some (chars defaultValue), .enableDisable field, false⟩

/-- An entry with `CFG_PARAM_INT`. -/
def number (proto : Option String) (param defaultValue minValue maxValue : String)
    (field : IntField) : CfgParam :=
  ⟨proto.map chars, chars param, some (chars defaultValue),
    .int field (some (chars minValue, chars maxValue)), false⟩

/-- The same with `clbk_only_with_global_ctx`. -/
def scope (param defaultValue minValue maxValue : String) (field : IntField) : CfgParam :=
  { number none param defaultValue minValue maxValue field with onlyWithGlobalCtx := true }

/-- An entry with `CFG_PARAM_PROTOCOL_ENABLE_DISABLE`. -/
def perProtocol (param defaultValue : String) (field : MaskField) : CfgParam :=
  ⟨some (chars "$PROTO_NAME_OR_ID"), chars param, some (chars defaultValue),
    .protocolEnableDisable field, false⟩

/-- An entry with `CFG_PARAM_FLOWRISK_ENABLE_DISABLE`. -/
def perRisk (param defaultValue : String) (field : MaskField) : CfgParam :=
  ⟨none, chars param, some (chars defaultValue), .flowriskEnableDisable field, false⟩

/-- `cfg_params`. -/
def cfgParams : List CfgParam := [
  switch (some "http") "metadata.req.content_type" "enable" .httpRequestContentTypeEnabled,
  switch (some "http") "metadata.req.referer" "enable" .httpRefererEnabled,
  switch (some "http") "metadata.req.host" "enable" .httpHostEnabled,
  switch (some "http") "metadata.req.username" "enable" .httpUsernameEnabled,
  switch (some "http") "metadata.req.password" "enable" .httpPasswordEnabled,
  switch (some "http") "metadata.resp.content_type" "enable" .httpRespContentTypeEnabled,
  switch (some "http") "metadata.resp.server" "enable" .httpRespServerEnabled,
  number (some "tls") "certificate_expiration_threshold" "30" "0" "365"
    .tlsCertificateExpireInXDays,
  switch (some "tls") "application_blocks_tracking" "disable" .tlsAppBlocksTrackingEnabled,
  number (some "tls") "dpi.heuristics" "0x00" "0" "0x07" .tlsHeuristics,
  number (some "tls") "dpi.heuristics.max_packets_extra_dissection" "25" "0" "255"
    .tlsHeuristicsMaxPackets,
  switch (some "tls") "metadata.sha1_fingerprint" "enable" .tlsSha1FingerprintEnabled,
  switch (some "tls") "metadata.versions_supported" "enable" .tlsVersionsSupportedEnabled,
  switch (some "tls") "metadata.alpn_negotiated" "enable" .tlsAlpnNegotiatedEnabled,
  switch (some "tls") "metadata.cipher" "enable" .tlsCipherEnabled,
  switch (some "tls") "metadata.cert_server_names" "enable" .tlsCertServerNamesEnabled,
  switch (some "tls") "metadata.cert_validity" "enable" .tlsCertValidityEnabled,
  switch (some "tls") "metadata.cert_issuer" "enable" .tlsCertIssuerEnabled,
  switch (some "tls") "metadata.cert_subject" "enable" .tlsCertSubjectEnabled,
  switch (some "tls") "metadata.browser" "enable" .tlsBrowserEnabled,
  switch (some "tls") "metadata.ja3s_fingerprint" "enable" .tlsJa3sFingerprintEnabled,
  switch (some "tls") "metadata.ja4c_fingerprint" "enable" .tlsJa4cFingerprintEnabled,
  switch (some "tls") "metadata.ja4r_fingerprint" "disable" .tlsJa4rFingerprintEnabled,
  switch (some "tls") "metadata.ja_data" "disable" .tlsJaDataEnabled,
  switch (some "tls") "metadata.ja_ignore_ephemeral_tls_extn" "disable"
    .tlsJaIgnoreEphemeralExtensions,
  switch (some "tls") "metadata.ndpifp_ignore_sni_tls_extn" "disable" .tlsNdpifpIgnoreSniExtension,
  switch (some "tls") "subclassification" "enable" .tlsSubclassificationEnabled,
  number (some "tls") "max_num_blocks_to_analyze" "0" "0" "256" .tlsMaxNumBlocksToAnalyze,
  switch (some "tls") "tls_blocks_show_timing" "disable" .tlsBlocksShowTiming,
  switch (some "quic") "subclassification" "enable" .quicSubclassificationEnabled,
  switch (some "smtp") "tls_dissection" "enable" .smtpOpportunisticTlsEnabled,
  switch (some "imap") "tls_dissection" "enable" .imapOpportunisticTlsEnabled,
  switch (some "pop") "tls_dissection" "enable" .popOpportunisticTlsEnabled,
  switch (some "ftp") "tls_dissection" "enable" .ftpOpportunisticTlsEnabled,
  switch (some "sip") "metadata.attribute.from" "enable" .sipAttributeFromEnabled,
  switch (some "sip") "metadata.attribute.from_imsi" "enable" .sipAttributeFromImsiEnabled,
  switch (some "sip") "metadata.attribute.to" "enable" .sipAttributeToEnabled,
  switch (some "sip") "metadata.attribute.to_imsi" "enable" .sipAttributeToImsiEnabled,
  switch (some "ssh") "metadata.hassh_fingerprint" "enable" .sshHasshFingerprintEnabled,
  switch (some "ssh") "metadata.ssh_data" "disable" .sshHasshDataEnabled,
  switch (some "stun") "tls_dissection" "enable" .stunOpportunisticTlsEnabled,
  number (some "stun") "max_packets_extra_dissection" "6" "0" "255" .stunMaxPacketsExtraDissection,
  switch (some "stun") "metadata.attribute.mapped_address" "enable" .stunMappedAddressEnabled,
  switch (some "stun") "metadata.attribute.response_origin" "enable" .stunResponseOriginEnabled,
  switch (some "stun") "metadata.attribute.other_address" "enable" .stunOtherAddressEnabled,
  switch (some "stun") "metadata.attribute.relayed_address" "enable" .stunRelayedAddressEnabled,
  switch (some "stun") "metadata.attribute.peer_address" "enable" .stunPeerAddressEnabled,
  switch (some "bittorrent") "metadata.hash" "enable" .bittorrentHashEnabled,
  switch (some "ssdp") "metadata" "enable" .ssdpMetadataEnabled,
  switch (some "ntp") "metadata" "enable" .ntpMetadataEnabled,
  switch (some "dns") "subclassification" "disable" .dnsSubclassificationEnabled,
  switch (some "dns") "process_response" "enable" .dnsParseResponseEnabled,
  switch (some "http") "process_response" "enable" .httpParseResponseEnabled,
  switch (some "http") "subclassification" "enable" .httpSubclassificationEnabled,
  number (some "ookla") "dpi.aggressiveness" "0x01" "0" "1" .ooklaAggressiveness,
  number (some "zoom") "max_packets_extra_dissection" "4" "0" "255" .zoomMaxPacketsExtraDissection,
  switch (some "rtp") "search_for_stun" "disable" .rtpSearchForStun,
  number (some "rtp") "max_packets_extra_dissection" "32" "0" "255" .rtpMaxPacketsExtraDissection,
  number (some "openvpn") "dpi.heuristics" "0x00" "0" "0x01" .openvpnHeuristics,
  number (some "openvpn") "dpi.heuristics.num_messages" "10" "0" "255" .openvpnHeuristicsNumMsgs,
  switch (some "openvpn") "subclassification_by_ip" "enable" .openvpnSubclassificationByIp,
  switch (some "wireguard") "subclassification_by_ip" "enable" .wireguardSubclassificationByIp,
  perProtocol "log" "disable" .debugBitmask,
  perProtocol "ip_list.load" "1" .ipListBitmask,
  perProtocol "monitoring" "disable" .monitoring,
  perProtocol "enable" "1" .detectionBitmask,
  number none "packets_limit_per_flow" "32" "0" "255" .maxPacketsToProcess,
  switch none "flow.direction_detection" "enable" .directionDetectEnabled,
  switch none "flow.track_payload" "disable" .trackPayloadEnabled,
  switch none "flow.use_client_ip_in_guess" "enable" .useClientIpInGuess,
  switch none "flow.use_client_port_in_guess" "enable" .useClientPortInGuess,
  switch none "tcp_ack_payload_heuristic" "disable" .tcpAckPaylodHeuristic,
  switch none "fully_encrypted_heuristic" "disable" .fullyEncryptedHeuristic,
  switch none "libgcrypt.init" "1" .libgcryptInit,
  number none "dpi.guess_on_giveup" "0x3" "0" "3" .guessOnGiveup,
  switch none "dpi.guess_ip_before_port" "disable" .guessIpBeforePort,
  switch none "dpi.compute_entropy" "1" .computeEntropy,
  number none "dpi.address_cache_size" "0" "0" "16777215" .addressCacheSize,
  switch none "fpc" "1" .fpcEnabled,
  switch none "hostname_dns_check" "0" .hostnameDnsCheckEnabled,
  switch none "metadata.tcp_fingerprint" "enable" .tcpFingerprintEnabled,
  switch none "metadata.tcp_fingerprint_raw" "disable" .tcpFingerprintRawEnabled,
  number none "metadata.tcp_fingerprint_format" "0" "0" "1" .tcpFingerprintFormat,
  switch none "metadata.ndpi_fingerprint" "enable" .ndpiFingerprintEnabled,
  number none "metadata.ndpi_fingerprint_format" "0" "0" "1" .ndpiFingerprintFormat,
  switch none "metadata.ndpi_fingerprint_ignore_tcp_fp" "disable" .tlsNdpifpIgnoreTcpFingerprint,
  switch none "flow_risk_lists.load" "1" .flowRiskListsEnabled,
  perRisk "flow_risk.$FLOWRISK_NAME_OR_ID" "enable" .flowriskBitmask,
  perRisk "flow_risk.$FLOWRISK_NAME_OR_ID.info" "enable" .flowriskInfoBitmask,
  switch none "flow_risk.anonymous_subscriber.list.icloudprivaterelay.load" "1"
    .riskAnonymousSubscriberListIcloudprivaterelayEnabled,
  switch none "flow_risk.anonymous_subscriber.list.tor.load" "1"
    .riskAnonymousSubscriberListTorExitNodesEnabled,
  switch none "flow_risk.crawler_bot.list.load" "1" .riskCrawlerBotListEnabled,
  ⟨none, chars "filename.config", none, .filenameConfig, false⟩,
  number none "log.level" "0" "0" "3" .logLevel,
  number none "lru.ookla.size" "1024" "0" "16777215" .ooklaCacheNumEntries,
  number none "lru.ookla.ttl" "120" "0" "16777215" .ooklaCacheTtl,
  scope "lru.ookla.scope" "0" "0" "1" .ooklaCacheScope,
  number none "lru.bittorrent.size" "32768" "0" "16777215" .bittorrentCacheNumEntries,
  number none "lru.bittorrent.ttl" "300" "0" "16777215" .bittorrentCacheTtl,
  scope "lru.bittorrent.scope" "0" "0" "1" .bittorrentCacheScope,
  number none "lru.stun.size" "1024" "0" "16777215" .stunCacheNumEntries,
  number none "lru.stun.ttl" "300" "0" "16777215" .stunCacheTtl,
  scope "lru.stun.scope" "0" "0" "1" .stunCacheScope,
  number none "lru.tls_cert.size" "1024" "0" "16777215" .tlsCertCacheNumEntries,
  number none "lru.tls_cert.ttl" "300" "0" "16777215" .tlsCertCacheTtl,
  scope "lru.tls_cert.scope" "0" "0" "1" .tlsCertCacheScope,
  number none "lru.mining.size" "1024" "0" "16777215" .miningCacheNumEntries,
  number none "lru.mining.ttl" "300" "0" "16777215" .miningCacheTtl,
  scope "lru.mining.scope" "0" "0" "1" .miningCacheScope,
  number none "lru.msteams.size" "1024" "0" "16777215" .msteamsCacheNumEntries,
  number none "lru.msteams.ttl" "60" "0" "16777215" .msteamsCacheTtl,
  scope "lru.msteams.scope" "0" "0" "1" .msteamsCacheScope,
  number none "lru.fpc_dns.size" "1024" "0" "16777215" .fpcDnsCacheNumEntries,
  number none "lru.fpc_dns.ttl" "60" "0" "16777215" .fpcDnsCacheTtl,
  scope "lru.fpc_dns.scope" "0" "0" "1" .fpcDnsCacheScope,
  number none "lru.signal.size" "32768" "0" "16777215" .signalCacheNumEntries,
  number none "lru.signal.ttl" "300" "0" "16777215" .signalCacheTtl,
  scope "lru.signal.scope" "0" "0" "1" .signalCacheScope]

end Ndpi.Source.Configuration
